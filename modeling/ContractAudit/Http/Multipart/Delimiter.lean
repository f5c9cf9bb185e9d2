/-!
# Delimiters of a form in parts

A delimiter is a line of two dashes and the boundary; two more dashes close the form. Lines end with
a carriage return, a newline, or both. A blank line divides the headers of a part from its content.

Each reader here takes octets that it finds at the front and gives back the rest, which is shorter.
-/

namespace ContractAudit.Http.Multipart

/-- A carriage return. -/
def cr : UInt8 := 13

/-- A newline. -/
def lf : UInt8 := 10

/-- A dash. -/
def dash : UInt8 := 45

/-- What follows a line break at the front. -/
def afterBreak? : List UInt8 → Option (List UInt8)
  | a :: s =>
    if a = lf then some s
    else if a = cr then
      match s with
      | b :: rest => if b = lf then some rest else some (b :: rest)
      | [] => some []
    else none
  | [] => none

theorem length_lt_of_afterBreak {s rest : List UInt8} (h : afterBreak? s = some rest) :
    rest.length < s.length := by
  unfold afterBreak? at h
  grind

/-- What follows the octets `mark`, if they stand at the front. -/
def afterOctets? : List UInt8 → List UInt8 → Option (List UInt8)
  | [], s => some s
  | a :: mark, b :: s => if a = b then afterOctets? mark s else none
  | _ :: _, [] => none

theorem length_le_of_afterOctets {mark s rest : List UInt8}
    (h : afterOctets? mark s = some rest) : rest.length ≤ s.length := by
  fun_induction afterOctets? mark s with
  | case1 => exact Option.some.inj h ▸ Nat.le_refl _
  | case2 _ _ _ ih => exact Nat.le_succ_of_le (ih h)
  | case3 => simp at h
  | case4 => simp at h

/-- Whether the octet is white space that may stand behind a delimiter in its line. -/
def isPadding (b : UInt8) : Bool :=
  b == 32 || b == 9 || b == 11 || b == 12

/-- The rest of the line of a delimiter: whether it closes the form, and what follows. Only where it
closes the form may the line break be missing. -/
def endOfDelimiter? (s : List UInt8) : Option (Bool × List UInt8) :=
  match afterOctets? [dash, dash] s with
  | some rest =>
    let rest := rest.dropWhile isPadding
    some (true, (afterBreak? rest).getD rest)
  | none => (afterBreak? (s.dropWhile isPadding)).map fun rest => (false, rest)

theorem length_le_of_endOfDelimiter {s rest : List UInt8} {closes : Bool}
    (h : endOfDelimiter? s = some (closes, rest)) : rest.length ≤ s.length := by
  have hpad (t : List UInt8) : (t.dropWhile isPadding).length ≤ t.length :=
    (List.dropWhile_suffix _).length_le
  unfold endOfDelimiter? at h
  split at h
  · next t ht =>
    have ht := Nat.le_trans (hpad t) (length_le_of_afterOctets ht)
    obtain ⟨-, rfl⟩ := Prod.mk.inj (Option.some.inj h)
    cases hb : afterBreak? (t.dropWhile isPadding) with
    | none => exact ht
    | some u => exact Nat.le_trans (Nat.le_of_lt (length_lt_of_afterBreak hb)) ht
  · obtain ⟨u, hu, hr⟩ := Option.map_eq_some_iff.1 h
    obtain ⟨-, rfl⟩ := Prod.mk.inj hr
    exact Nat.le_trans (Nat.le_of_lt (length_lt_of_afterBreak hu)) (hpad s)

/-- The delimiter of a boundary, without the line break before it. -/
def mark (boundary : List UInt8) : List UInt8 :=
  dash :: dash :: boundary

/-- Whether a delimiter at the front closes the form, and what follows it. -/
def delimiter? (boundary s : List UInt8) : Option (Bool × List UInt8) :=
  (afterOctets? (mark boundary) s).bind endOfDelimiter?

/-- The same for a delimiter behind a line break, as it stands at the end of a content. -/
def brokenDelimiter? (boundary s : List UInt8) : Option (Bool × List UInt8) :=
  (afterBreak? s).bind (delimiter? boundary)

theorem length_lt_of_delimiter {boundary s rest : List UInt8} {closes : Bool}
    (h : delimiter? boundary s = some (closes, rest)) : rest.length < s.length := by
  obtain ⟨t, ht, hr⟩ := Option.bind_eq_some_iff.1 h
  cases s with
  | nil => simp [mark, afterOctets?] at ht
  | cons b s =>
    rw [mark, afterOctets?] at ht
    split at ht
    · exact Nat.lt_succ_of_le
        (Nat.le_trans (length_le_of_endOfDelimiter hr) (length_le_of_afterOctets ht))
    · simp at ht

theorem length_lt_of_brokenDelimiter {boundary s rest : List UInt8} {closes : Bool}
    (h : brokenDelimiter? boundary s = some (closes, rest)) : rest.length < s.length := by
  obtain ⟨t, ht, hr⟩ := Option.bind_eq_some_iff.1 h
  exact Nat.lt_trans (length_lt_of_delimiter hr) (length_lt_of_afterBreak ht)

/-- What follows the first line break of a blank line at the front; the second one stays. -/
def blankLine? (s : List UInt8) : Option (Unit × List UInt8) :=
  match s with
  | a :: b :: rest =>
    if a = b && (a = cr || a = lf) then some ((), b :: rest)
    else if (afterOctets? [cr, lf, cr, lf] s).isSome then some ((), rest)
    else none
  | _ => none

theorem length_lt_of_blankLine {s rest : List UInt8} {u : Unit}
    (h : blankLine? s = some (u, rest)) : rest.length < s.length := by
  unfold blankLine? at h
  grind

/-! ## Finding -/

/-- What was found in octets: what stands before it, its data and what follows it. -/
structure Found (α : Type) where
  before : List UInt8
  value : α
  rest : List UInt8

/-- The first place that the reader takes, with the octets in `before`, reversed, in front. -/
@[specialize] def findFrom {α : Type} (read? : List UInt8 → Option (α × List UInt8))
    (before : List UInt8) : List UInt8 → Option (Found α)
  | [] => none
  | b :: s =>
    match read? (b :: s) with
    | some (value, rest) => some ⟨before.reverse, value, rest⟩
    | none => findFrom read? (b :: before) s

/-- The first place that the reader takes. -/
@[inline] def find {α : Type} (read? : List UInt8 → Option (α × List UInt8)) (s : List UInt8) :
    Option (Found α) :=
  findFrom read? [] s

theorem length_lt_of_findFrom {α : Type} {read? : List UInt8 → Option (α × List UInt8)}
    (hread : ∀ {s value rest}, read? s = some (value, rest) → rest.length < s.length)
    {before s : List UInt8} {found : Found α} (h : findFrom read? before s = some found) :
    found.rest.length < s.length := by
  fun_induction findFrom read? before s with
  | case1 => simp at h
  | case2 before b s value rest hr =>
    obtain rfl := Option.some.inj h
    exact hread hr
  | case3 before b s hr ih => exact Nat.lt_succ_of_lt (ih h)

end ContractAudit.Http.Multipart
