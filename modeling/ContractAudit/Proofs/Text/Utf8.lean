import ContractAudit.Text.Utf8
import Mathlib.Data.List.Basic

/-!
# Texts come back from their octets

What is written for a text is read as that text, by the strict decoder and by the lenient one, and
takes as many octets as the size of the text says.

A character is written in one to four octets. The decoder learns from the first of them how many
follow; the second is held to a narrower range where the code point could have been written
shorter, or would be a surrogate. A character is neither, so the narrow ranges let it through
(`step_three`, `step_four`), and one step of the decoder undoes the writing of one character
(`exists_step_encodePoint`).

Main results: `decode?_encode`, `decodePoints?_encode`, `decodeLenient_encode` and
`length_encode`.
-/

namespace ContractAudit.Text.Utf8

/-! ## Octets as numbers -/

theorem toNat_toUInt8 {n : Nat} (h : n < 0x100) : n.toUInt8.toNat = n := by
  simp only [Nat.toUInt8, UInt8.toNat_ofNat']
  omega

/-- The step at a first octet, with the octet as a number. -/
theorem step_eq (surrogates : Bool) (b : UInt8) (rest : List UInt8) :
    step surrogates b rest =
      if b.toNat < 0x80 then .point b.toNat rest
      else if 0xc2 ≤ b.toNat ∧ b.toNat ≤ 0xdf then
        continueWithin 0x80 0xbf (b.toNat - 0xc0) 0 rest
      else if b.toNat = 0xe0 then continueWithin 0xa0 0xbf 0 1 rest
      else if b.toNat = 0xed ∧ surrogates = false then continueWithin 0x80 0x9f 0xd 1 rest
      else if 0xe1 ≤ b.toNat ∧ b.toNat ≤ 0xef then
        continueWithin 0x80 0xbf (b.toNat - 0xe0) 1 rest
      else if b.toNat = 0xf0 then continueWithin 0x90 0xbf 0 2 rest
      else if 0xf1 ≤ b.toNat ∧ b.toNat ≤ 0xf3 then
        continueWithin 0x80 0xbf (b.toNat - 0xf0) 2 rest
      else if b.toNat = 0xf4 then continueWithin 0x80 0x8f 4 2 rest
      else .illFormed rest := by
  simp only [step, UInt8.lt_iff_toNat_lt, UInt8.le_iff_toNat_le, Bool.and_eq_true,
    decide_eq_true_eq, beq_iff_eq, ← UInt8.toNat_inj, Bool.not_eq_true']
  rfl

theorem continueWith_succ (n more : Nat) {k : Nat} (hk : k < 0x40) (rest : List UInt8) :
    continueWith n (more + 1) ((0x80 + k).toUInt8 :: rest) =
      continueWith (n * 0x40 + k) more rest := by
  have hb := toNat_toUInt8 (n := 0x80 + k) (by omega)
  have hcontinues : isContinuation (0x80 + k).toUInt8 = true := by
    simp only [isContinuation, Bool.and_eq_true, decide_eq_true_eq, UInt8.le_iff_toNat_le, hb]
    refine ⟨Nat.le_add_right _ _, ?_⟩
    show 0x80 + k ≤ 0xbf
    omega
  rw [continueWith, if_pos hcontinues, hb, Nat.add_sub_cancel_left]

theorem continueWithin_of_le {low high : UInt8} (n more : Nat) {k : Nat} (hk : k < 0x40)
    (hlow : low.toNat ≤ 0x80 + k) (hhigh : 0x80 + k ≤ high.toNat) (rest : List UInt8) :
    continueWithin low high n more ((0x80 + k).toUInt8 :: rest) =
      continueWith (n * 0x40 + k) more rest := by
  have hb := toNat_toUInt8 (n := 0x80 + k) (by omega)
  have hwithin : (decide (low ≤ (0x80 + k).toUInt8) && decide ((0x80 + k).toUInt8 ≤ high)) =
      true := by
    simp only [Bool.and_eq_true, decide_eq_true_eq, UInt8.le_iff_toNat_le, hb]
    exact ⟨hlow, hhigh⟩
  rw [continueWithin, if_pos hwithin, hb, Nat.add_sub_cancel_left]

/-! ## One character -/

section Step

variable (surrogates : Bool) {n : Nat} (tail : List UInt8)

theorem step_one (h : n < 0x80) : step surrogates n.toUInt8 tail = .point n tail := by
  rw [step_eq, toNat_toUInt8 (by omega), if_pos h]

theorem step_two (hlow : 0x80 ≤ n) (hhigh : n < 0x800) :
    step surrogates (0xc0 + n / 0x40).toUInt8 ((0x80 + n % 0x40).toUInt8 :: tail) =
      .point n tail := by
  have hlead := toNat_toUInt8 (n := 0xc0 + n / 0x40) (by omega)
  have hlast : n % 0x40 < 0x40 := Nat.mod_lt _ (by decide)
  have hvalue : (0xc0 + n / 0x40 - 0xc0) * 0x40 + n % 0x40 = n := by omega
  have hend : 0x80 + n % 0x40 ≤ (0xbf : UInt8).toNat := by
    show 0x80 + n % 0x40 ≤ 0xbf
    omega
  rw [step_eq, hlead, if_neg (by omega), if_pos (by omega),
    continueWithin_of_le _ _ hlast (Nat.le_add_right _ _) hend, hvalue, continueWith]

/-- The second octet tells a character from one that needs only two octets and from a surrogate. -/
theorem step_three (hlow : 0x800 ≤ n) (hhigh : n < 0x10000) (hchar : n < 0xd800 ∨ 0xdfff < n) :
    step surrogates (0xe0 + n / 0x1000).toUInt8
      ((0x80 + n / 0x40 % 0x40).toUInt8 :: (0x80 + n % 0x40).toUInt8 :: tail) = .point n tail := by
  have hlead := toNat_toUInt8 (n := 0xe0 + n / 0x1000) (by omega)
  have hmiddle : n / 0x40 % 0x40 < 0x40 := Nat.mod_lt _ (by decide)
  have hlast : n % 0x40 < 0x40 := Nat.mod_lt _ (by decide)
  have hread : ∀ (low high : UInt8) (lead : Nat), lead = n / 0x1000 →
      low.toNat ≤ 0x80 + n / 0x40 % 0x40 → 0x80 + n / 0x40 % 0x40 ≤ high.toNat →
      continueWithin low high lead 1
        ((0x80 + n / 0x40 % 0x40).toUInt8 :: (0x80 + n % 0x40).toUInt8 :: tail) =
          .point n tail := by
    intro low high lead hl hmin hmax
    have hvalue : (lead * 0x40 + n / 0x40 % 0x40) * 0x40 + n % 0x40 = n := by omega
    rw [continueWithin_of_le _ _ hmiddle hmin hmax, continueWith_succ _ _ hlast, hvalue,
      continueWith]
  rw [step_eq, hlead, if_neg (by omega), if_neg (by omega)]
  have hrange : 0x80 + n / 0x40 % 0x40 ≤ (0xbf : UInt8).toNat := by
    show 0x80 + n / 0x40 % 0x40 ≤ 0xbf
    omega
  split
  · refine hread _ _ _ (by omega) ?_ hrange
    show 0xa0 ≤ 0x80 + n / 0x40 % 0x40
    omega
  split
  · refine hread _ _ _ (by omega) (Nat.le_add_right _ _) ?_
    show 0x80 + n / 0x40 % 0x40 ≤ 0x9f
    omega
  · rw [if_pos (by omega)]
    exact hread _ _ _ (by omega) (Nat.le_add_right _ _) hrange

/-- The second octet tells a character from one that needs only three octets and from what lies
beyond the last code point. -/
theorem step_four (hlow : 0x10000 ≤ n) (hhigh : n < 0x110000) :
    step surrogates (0xf0 + n / 0x40000).toUInt8
      ((0x80 + n / 0x1000 % 0x40).toUInt8 :: (0x80 + n / 0x40 % 0x40).toUInt8 ::
        (0x80 + n % 0x40).toUInt8 :: tail) = .point n tail := by
  have hlead := toNat_toUInt8 (n := 0xf0 + n / 0x40000) (by omega)
  have hsecond : n / 0x1000 % 0x40 < 0x40 := Nat.mod_lt _ (by decide)
  have hthird : n / 0x40 % 0x40 < 0x40 := Nat.mod_lt _ (by decide)
  have hlast : n % 0x40 < 0x40 := Nat.mod_lt _ (by decide)
  have hread : ∀ (low high : UInt8) (lead : Nat), lead = n / 0x40000 →
      low.toNat ≤ 0x80 + n / 0x1000 % 0x40 → 0x80 + n / 0x1000 % 0x40 ≤ high.toNat →
      continueWithin low high lead 2
        ((0x80 + n / 0x1000 % 0x40).toUInt8 :: (0x80 + n / 0x40 % 0x40).toUInt8 ::
          (0x80 + n % 0x40).toUInt8 :: tail) = .point n tail := by
    intro low high lead hl hmin hmax
    have hvalue : ((lead * 0x40 + n / 0x1000 % 0x40) * 0x40 + n / 0x40 % 0x40) * 0x40 +
        n % 0x40 = n := by omega
    rw [continueWithin_of_le _ _ hsecond hmin hmax, continueWith_succ _ _ hthird,
      continueWith_succ _ _ hlast, hvalue, continueWith]
  rw [step_eq, hlead, if_neg (by omega), if_neg (by omega), if_neg (by omega), if_neg (by omega),
    if_neg (by omega)]
  have hrange : 0x80 + n / 0x1000 % 0x40 ≤ (0xbf : UInt8).toNat := by
    show 0x80 + n / 0x1000 % 0x40 ≤ 0xbf
    omega
  split
  · refine hread _ _ _ (by omega) ?_ hrange
    show 0x90 ≤ 0x80 + n / 0x1000 % 0x40
    omega
  split
  · exact hread _ _ _ (by omega) (Nat.le_add_right _ _) hrange
  · rw [if_pos (by omega)]
    refine hread _ _ _ (by omega) (Nat.le_add_right _ _) ?_
    show 0x80 + n / 0x1000 % 0x40 ≤ 0x8f
    omega

end Step

/-- A character is written in at least one octet, and one step reads it back. -/
theorem exists_step_encodePoint (surrogates : Bool) (c : Char) (tail : List UInt8) :
    ∃ b rest, encodePoint c.toNat ++ tail = b :: rest ∧
      step surrogates b rest = .point c.toNat tail := by
  have hvalid : c.toNat < 0xd800 ∨ 0xdfff < c.toNat ∧ c.toNat < 0x110000 := c.valid
  rw [encodePoint]
  split
  · exact ⟨_, _, rfl, step_one surrogates tail ‹_›⟩
  split
  · exact ⟨_, _, rfl, step_two surrogates tail (by omega) ‹_›⟩
  split
  · exact ⟨_, _, rfl, step_three surrogates tail (by omega) ‹_› (by omega)⟩
  · exact ⟨_, _, rfl, step_four surrogates tail (by omega) (by omega)⟩

/-! ## Whole texts -/

theorem encode_cons (c : Char) (s : List Char) :
    encode (c :: s) = encodePoint c.toNat ++ encode s := List.flatMap_cons

theorem pointsFrom_encode (surrogates : Bool) (done : List Nat) (s : List Char) :
    pointsFrom surrogates done (encode s) = some (done.reverse ++ s.map Char.toNat) := by
  induction s generalizing done with
  | nil => rw [encode, List.flatMap_nil, pointsFrom, List.map_nil, List.append_nil]
  | cons c s ih =>
    obtain ⟨b, rest, hoctets, hstep⟩ := exists_step_encodePoint surrogates c (encode s)
    rw [encode_cons, hoctets, pointsFrom]
    split
    · rename_i n rest' hpoint
      rw [hstep] at hpoint
      obtain ⟨rfl, rfl⟩ := Step.point.inj hpoint
      rw [ih]
      simp
    · rename_i hfailed
      rw [hstep] at hfailed
      cases hfailed

theorem decodePoints?_encode (s : List Char) :
    decodePoints? (encode s) = some (s.map Char.toNat) := by
  rw [decodePoints?, pointsFrom_encode, List.reverse_nil, List.nil_append]

theorem decode?_encode (s : List Char) : decode? (encode s) = some s := by
  rw [decode?, pointsFrom_encode]
  simp [Function.comp_def]

/-- Nothing that is written for a text is ill-formed. -/
theorem decodeLenient_encode (s : List Char) : decodeLenient (encode s) = s := by
  induction s with
  | nil => exact decodeLenient_nil
  | cons c s ih =>
    obtain ⟨b, rest, hoctets, hstep⟩ := exists_step_encodePoint false c (encode s)
    rw [encode_cons, hoctets, decodeLenient_cons, hstep]
    show Char.ofNat c.toNat :: decodeLenient (encode s) = c :: s
    rw [Char.ofNat_toNat, ih]

/-! ## Sizes -/

theorem length_encodePoint (c : Char) : (encodePoint c.toNat).length = c.utf8Size := by
  have hval : c.val.toNat = c.toNat := rfl
  have hone : c.toNat < 0x80 ↔ c.toNat ≤ 0x7f := Nat.lt_succ_iff
  have htwo : c.toNat < 0x800 ↔ c.toNat ≤ 0x7ff := Nat.lt_succ_iff
  have hthree : c.toNat < 0x10000 ↔ c.toNat ≤ 0xffff := Nat.lt_succ_iff
  -- both sides compare the code point with the last ones of one, two and three octets
  unfold encodePoint Char.utf8Size
  simp only [UInt32.le_iff_toNat_le, UInt32.toNat_ofNatLT, hval, hone, htwo, hthree]
  repeat' split
  all_goals rfl

theorem size_cons (c : Char) (s : List Char) : size (c :: s) = c.utf8Size + size s := by
  have hrun : ∀ n, s.foldl (fun n c => n + c.utf8Size) n = n + size s := by
    intro n
    rw [size]
    induction s generalizing n with
    | nil => rfl
    | cons d s ih =>
      rw [List.foldl_cons, List.foldl_cons, ih, ih (0 + d.utf8Size)]
      omega
  rw [size, List.foldl_cons, hrun, Nat.zero_add]

theorem size_append (s t : List Char) : size (s ++ t) = size s + size t := by
  induction s with
  | nil => exact (Nat.zero_add _).symm
  | cons c s ih => rw [List.cons_append, size_cons, size_cons, ih, Nat.add_assoc]

theorem size_le_of_isInfix {part s : List Char} (h : part <:+: s) : size part ≤ size s := by
  obtain ⟨before, behind, rfl⟩ := h
  rw [size_append, size_append]
  omega

/-- The size of a text counts its octets. -/
theorem length_encode (s : List Char) : (encode s).length = size s := by
  induction s with
  | nil => rfl
  | cons c s ih => rw [encode_cons, List.length_append, length_encodePoint, ih, size_cons]

theorem length_encode_le (s : List Char) : (encode s).length ≤ 4 * s.length := by
  induction s with
  | nil => exact Nat.le_refl _
  | cons c s ih =>
    have hc : c.utf8Size ≤ 4 := c.utf8Size_le_four
    rw [encode_cons, List.length_append, length_encodePoint, List.length_cons]
    omega

end ContractAudit.Text.Utf8
