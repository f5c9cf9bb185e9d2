/-!
# UTF-8

Octets to characters and back. A decoder step (`step`) reads one well-formed sequence, or the
longest start of one that no octet can complete (a maximal ill-formed subpart). Strict decoding
refuses the first ill-formed part; lenient decoding writes U+FFFD for each.
-/

namespace ContractAudit.Text.Utf8

/-- Octets that take `s`. -/
def size (s : List Char) : Nat :=
  s.foldl (fun n c => n + c.utf8Size) 0

/-- Octets of the code point `n`, which need not be a character. -/
def encodePoint (n : Nat) : List UInt8 :=
  if n < 0x80 then [n.toUInt8]
  else if n < 0x800 then [(0xc0 + n / 0x40).toUInt8, (0x80 + n % 0x40).toUInt8]
  else if n < 0x10000 then
    [(0xe0 + n / 0x1000).toUInt8, (0x80 + n / 0x40 % 0x40).toUInt8, (0x80 + n % 0x40).toUInt8]
  else
    [(0xf0 + n / 0x40000).toUInt8, (0x80 + n / 0x1000 % 0x40).toUInt8,
      (0x80 + n / 0x40 % 0x40).toUInt8, (0x80 + n % 0x40).toUInt8]

/-- Octets of the text. -/
def encode (s : List Char) : List UInt8 :=
  s.flatMap fun c => encodePoint c.toNat

/-! ## One step of decoding -/

/-- What a sequence of octets starts with. -/
inductive Step where
  /-- A well-formed sequence: its code point and the octets after it. -/
  | point (n : Nat) (rest : List UInt8)
  /-- A maximal ill-formed subpart: the octets after it. -/
  | illFormed (rest : List UInt8)

/-- Whether the octet can stand in any continuation place. -/
def isContinuation (b : UInt8) : Bool :=
  0x80 ≤ b && b ≤ 0xbf

/-- The rest of a sequence whose value so far is `n`, with `more` continuation octets to come. -/
def continueWith (n : Nat) : Nat → List UInt8 → Step
  | 0, rest => .point n rest
  | more + 1, b :: rest =>
    if isContinuation b then continueWith (n * 0x40 + (b.toNat - 0x80)) more rest
    else .illFormed (b :: rest)
  | _ + 1, [] => .illFormed []

/-- A sequence whose second octet must lie in `[low, high]`, with `more` octets after that. -/
def continueWithin (low high : UInt8) (n more : Nat) : List UInt8 → Step
  | b :: rest =>
    if low ≤ b && b ≤ high then continueWith (n * 0x40 + (b.toNat - 0x80)) more rest
    else .illFormed (b :: rest)
  | [] => .illFormed []

/-- The step at a first octet `b`. With `surrogates` the code points U+D800 to U+DFFF count as
well-formed. -/
def step (surrogates : Bool) (b : UInt8) (rest : List UInt8) : Step :=
  if b < 0x80 then .point b.toNat rest
  -- 0xc0 and 0xc1 only start forms that are too long
  else if 0xc2 ≤ b && b ≤ 0xdf then continueWithin 0x80 0xbf (b.toNat - 0xc0) 0 rest
  -- a second octet below 0xa0 would make the form too long
  else if b == 0xe0 then continueWithin 0xa0 0xbf 0 1 rest
  -- from 0xa0 on the second octet would start a surrogate
  else if b == 0xed && !surrogates then continueWithin 0x80 0x9f 0xd 1 rest
  else if 0xe1 ≤ b && b ≤ 0xef then continueWithin 0x80 0xbf (b.toNat - 0xe0) 1 rest
  else if b == 0xf0 then continueWithin 0x90 0xbf 0 2 rest
  else if 0xf1 ≤ b && b ≤ 0xf3 then continueWithin 0x80 0xbf (b.toNat - 0xf0) 2 rest
  -- from 0x90 on the second octet would lead past the last code point
  else if b == 0xf4 then continueWithin 0x80 0x8f 4 2 rest
  else .illFormed rest

/-- The octets that a step leaves. -/
def Step.rest : Step → List UInt8
  | .point _ rest | .illFormed rest => rest

theorem length_rest_continueWith (n more : Nat) (s : List UInt8) :
    (continueWith n more s).rest.length ≤ s.length := by
  fun_induction continueWith n more s with
  | case1 => exact Nat.le_refl _
  | case2 _ _ _ _ _ ih => exact Nat.le_succ_of_le ih
  | case3 => exact Nat.le_refl _
  | case4 => exact Nat.le_refl _

theorem length_rest_continueWithin (low high : UInt8) (n more : Nat) (s : List UInt8) :
    (continueWithin low high n more s).rest.length ≤ s.length := by
  fun_cases continueWithin low high n more s with
  | case1 => exact Nat.le_succ_of_le (length_rest_continueWith _ _ _)
  | case2 => exact Nat.le_refl _
  | case3 => exact Nat.le_refl _

/-- A step leaves no more than what follows the first octet. -/
theorem length_rest_step (surrogates : Bool) (b : UInt8) (s : List UInt8) :
    (step surrogates b s).rest.length ≤ s.length := by
  unfold step
  repeat' split
  all_goals first
    | exact length_rest_continueWithin _ _ _ _ _
    | exact Nat.le_refl _

theorem length_lt_of_point {surrogates : Bool} {b : UInt8} {s rest : List UInt8} {n : Nat}
    (h : step surrogates b s = .point n rest) : rest.length < (b :: s).length := by
  have := length_rest_step surrogates b s
  rw [h] at this
  exact Nat.lt_succ_of_le this

theorem length_lt_of_illFormed {surrogates : Bool} {b : UInt8} {s rest : List UInt8}
    (h : step surrogates b s = .illFormed rest) : rest.length < (b :: s).length := by
  have := length_rest_step surrogates b s
  rw [h] at this
  exact Nat.lt_succ_of_le this

/-! ## Whole texts -/

/-- The code points of well-formed octets, in front of which stand those in `done`, reversed. -/
def pointsFrom (surrogates : Bool) (done : List Nat) : List UInt8 → Option (List Nat)
  | [] => some done.reverse
  | b :: s =>
    match _ : step surrogates b s with
    | .point n rest => pointsFrom surrogates (n :: done) rest
    | .illFormed _ => none
termination_by s => s.length
decreasing_by exact length_lt_of_point ‹_›

/-- The code points of well-formed octets, surrogates included. -/
def decodePoints? (s : List UInt8) : Option (List Nat) :=
  pointsFrom true [] s

/-- The text of well-formed octets. -/
def decode? (s : List UInt8) : Option (List Char) :=
  (pointsFrom false [] s).map (·.map Char.ofNat)

/-- The text with U+FFFD for each ill-formed part, after that in `done`, reversed. -/
def decodeLenientFrom (done : List Char) : List UInt8 → List Char
  | [] => done.reverse
  | b :: s =>
    match _ : step false b s with
    | .point n rest => decodeLenientFrom (Char.ofNat n :: done) rest
    | .illFormed rest => decodeLenientFrom ('\uFFFD' :: done) rest
termination_by s => s.length
decreasing_by
  · exact length_lt_of_point ‹_›
  · exact length_lt_of_illFormed ‹_›

/-- The text with U+FFFD for each ill-formed part. -/
def decodeLenient (s : List UInt8) : List Char :=
  decodeLenientFrom [] s

theorem decodeLenientFrom_append (done tail : List Char) (s : List UInt8) :
    decodeLenientFrom (done ++ tail) s = tail.reverse ++ decodeLenientFrom done s := by
  fun_induction decodeLenientFrom done s with
  | case1 done => simp [decodeLenientFrom]
  | case2 done b s n rest h ih =>
    rw [decodeLenientFrom, ← List.cons_append]
    split <;> simp_all
  | case3 done b s rest h ih =>
    rw [decodeLenientFrom, ← List.cons_append]
    split <;> simp_all

theorem decodeLenientFrom_eq (done : List Char) (s : List UInt8) :
    decodeLenientFrom done s = done.reverse ++ decodeLenient s :=
  decodeLenientFrom_append [] done s

@[simp] theorem decodeLenient_nil : decodeLenient [] = [] := by
  rw [decodeLenient, decodeLenientFrom, List.reverse_nil]

theorem decodeLenient_cons (b : UInt8) (s : List UInt8) :
    decodeLenient (b :: s) = match step false b s with
      | .point n rest => Char.ofNat n :: decodeLenient rest
      | .illFormed rest => '\uFFFD' :: decodeLenient rest := by
  rw [decodeLenient, decodeLenientFrom]
  split <;> rw [decodeLenientFrom_eq] <;> simp [*]

end ContractAudit.Text.Utf8
