/-!
# Occurrences in a text

A pattern is a test on the rest of a text: whether it starts with something of the wanted shape. It
occurs in a text when some rest of the text, the empty one included, passes the test.

Main statements: `occurs_iff` (some rest passes), `after?_eq_some_iff` (what is left after a
literal), `occurs_iff_isInfix` and `mentions_iff` (what occurs is a part of the text).
-/

namespace ContractAudit.Text

/-- Whether some rest of the text passes the test. -/
@[specialize] def occurs (test : List Char → Bool) : List Char → Bool
  | [] => test []
  | c :: rest => test (c :: rest) || occurs test rest

theorem occurs_iff {test : List Char → Bool} {s : List Char} :
    occurs test s = true ↔ ∃ before rest, s = before ++ rest ∧ test rest = true := by
  induction s with
  | nil =>
    constructor
    · intro h
      exact ⟨[], [], rfl, h⟩
    · rintro ⟨before, rest, hs, h⟩
      obtain ⟨-, rfl⟩ := List.append_eq_nil_iff.1 hs.symm
      exact h
  | cons c s ih =>
    simp only [occurs, Bool.or_eq_true, ih]
    constructor
    · rintro (h | ⟨before, rest, rfl, h⟩)
      · exact ⟨[], c :: s, rfl, h⟩
      · exact ⟨c :: before, rest, rfl, h⟩
    · rintro ⟨before, rest, hs, h⟩
      cases before with
      | nil => exact .inl (by rw [List.nil_append] at hs; rwa [hs])
      | cons d before =>
        obtain ⟨rfl, rfl⟩ := List.cons.inj hs
        exact .inr ⟨before, rest, rfl, h⟩

/-- What follows the characters of `literal`, if the text starts with them. -/
def afterChars? : List Char → List Char → Option (List Char)
  | [], s => some s
  | a :: literal, c :: s => if a = c then afterChars? literal s else none
  | _ :: _, [] => none

theorem afterChars?_eq_some_iff {literal s rest : List Char} :
    afterChars? literal s = some rest ↔ s = literal ++ rest := by
  fun_induction afterChars? literal s with
  | case1 s => simp
  | case2 c literal s ih => simp [ih]
  | case3 a literal c s h => simp [Ne.symm h]
  | case4 => simp

/-- What follows `literal`, if the text starts with it. -/
@[inline] def after? (literal : String) (s : List Char) : Option (List Char) :=
  afterChars? literal.toList s

theorem after?_eq_some_iff {literal : String} {s rest : List Char} :
    after? literal s = some rest ↔ s = literal.toList ++ rest :=
  afterChars?_eq_some_iff

/-- Whether the text starts with `literal`. -/
@[inline] def startsWith (literal : String) (s : List Char) : Bool :=
  (after? literal s).isSome

theorem startsWith_iff {literal : String} {s : List Char} :
    startsWith literal s = true ↔ literal.toList <+: s := by
  rw [startsWith, Option.isSome_iff_exists]
  constructor
  · rintro ⟨rest, h⟩
    exact ⟨rest, (after?_eq_some_iff.1 h).symm⟩
  · rintro ⟨rest, h⟩
    exact ⟨rest, after?_eq_some_iff.2 h.symm⟩

/-- What a test finds at the start of a text, a search finds as a part of it. -/
theorem occurs_iff_isInfix {ι : Type} {part : ι → List Char} {test : List Char → Bool}
    (htest : ∀ s, test s = true ↔ ∃ i, part i <+: s) {s : List Char} :
    occurs test s = true ↔ ∃ i, part i <:+: s := by
  rw [occurs_iff]
  constructor
  · rintro ⟨before, rest, rfl, h⟩
    obtain ⟨i, hi⟩ := (htest rest).1 h
    exact ⟨i, hi.isInfix.trans (List.suffix_append before rest).isInfix⟩
  · rintro ⟨i, before, after, h⟩
    refine ⟨before, part i ++ after, ?_, (htest _).2 ⟨i, List.prefix_append _ after⟩⟩
    rw [← h, List.append_assoc]

/-- Whether `literal` occurs in the text. -/
@[inline] def mentions (literal : String) (s : List Char) : Bool :=
  occurs (startsWith literal) s

theorem mentions_iff {literal : String} {s : List Char} :
    mentions literal s = true ↔ literal.toList <:+: s := by
  have htest : ∀ s, startsWith literal s = true ↔ ∃ _ : Unit, literal.toList <+: s := fun s => by
    rw [startsWith_iff, exists_const]
  rw [mentions, occurs_iff_isInfix htest, exists_const]

end ContractAudit.Text
