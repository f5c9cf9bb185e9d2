import ContractAudit.Proofs.Detector.Patterns
import ContractAudit.Proofs.Text.Ascii
import ContractAudit.Proofs.Text.Parts
import ContractAudit.Proofs.Text.Runs

/-!
# Directives that protect a source

Arithmetic is checked by the language from version 0.8 on. Whether a source asks for such a version
is decided by the characters of its minor version: a digit 8 or 9, or two digits. Here this is
compared with the number itself, in a source with one version directive and nothing else in it that
bears on versions.

* **At the directive** the pattern reads the keyword, the language and the constraint with white
  space of any length between them, and comes to the digits of the number
  (`VersionDirective.startsModernPragma_text_append`). A single digit is 8 or 9 exactly for the
  numbers 8 and 9, and all numbers from 10 on have two digits (`startsModernMinor_toDigits`). This
  needs that no other digit stands behind the number.
* **Elsewhere** the pattern finds nothing. The keyword starts with a letter that comes again neither
  in it nor in the rest of the directive, so between two texts without the keyword there is one
  place for it. A mention of `SafeMath` could go on neither past this letter nor past the point of
  the version, and between them a letter of it is missing.

Main results: `mentionsSafeMath_append_text`, `occurs_startsModernPragma_iff` and
`isVersionProtected_iff_modern`.
-/

namespace ContractAudit.Detector.Overflow

open Text

/-! ## Directives -/

/-- A directive for a version `0.minor`, in which white space stands as it likes. -/
structure VersionDirective where
  gap : List Char
  beforeConstraint : List Char
  constraint : List Char
  afterConstraint : List Char
  minor : Nat
  gap_ne_nil : gap ≠ []
  gap_blank : isAllBlank gap = true
  beforeConstraint_blank : isAllBlank beforeConstraint = true
  constraint_subset : constraint ⊆ "^>=~".toList
  afterConstraint_blank : isAllBlank afterConstraint = true

namespace VersionDirective

/-- The directive as it is written. -/
def text (d : VersionDirective) : List Char :=
  "pragma".toList ++ d.gap ++ "solidity".toList ++ d.beforeConstraint ++ d.constraint ++
    d.afterConstraint ++ "0.".toList ++ (toString d.minor).toList

/-- What stands between the keyword and the point of the version. -/
def front (d : VersionDirective) : List Char :=
  d.gap ++ "solidity".toList ++ d.beforeConstraint ++ d.constraint ++ d.afterConstraint ++ ['0']

theorem toList_minor (d : VersionDirective) :
    (toString d.minor).toList = Nat.toDigits 10 d.minor :=
  Nat.toList_repr (n := d.minor)

theorem text_eq (d : VersionDirective) :
    d.text = 'p' :: ("ragma".toList ++ (d.front ++ '.' :: Nat.toDigits 10 d.minor)) := by
  unfold text front
  rw [toList_minor]
  simp

theorem mem_front (d : VersionDirective) {c : Char} (hc : c ∈ d.front) :
    isBlank c = true ∨ c ∈ "solidity^>=~0".toList := by
  have hblank : ∀ {w : List Char}, isAllBlank w = true → c ∈ w → isBlank c = true := fun hw hc =>
    List.all_eq_true.1 hw c hc
  simp only [front, List.mem_append, List.mem_singleton] at hc
  rcases hc with ((((hc | hc) | hc) | hc) | hc) | hc
  · exact Or.inl (hblank d.gap_blank hc)
  · exact Or.inr (List.mem_append_left "^>=~0".toList hc)
  · exact Or.inl (hblank d.beforeConstraint_blank hc)
  · exact Or.inr (List.mem_append_right "solidity".toList
      (List.mem_append_left ['0'] (d.constraint_subset hc)))
  · exact Or.inl (hblank d.afterConstraint_blank hc)
  · exact Or.inr (hc ▸ by decide)

end VersionDirective

/-! ## Minor versions -/

theorem isDecimalDigit_of_isDigit {c : Char} (h : c.isDigit = true) : isDecimalDigit c = true :=
  of_ascii (p := fun c => c.isDigit = true → isDecimalDigit c = true) (by decide)
    (toNat_lt_of_isDigit h) h

/-- A number is 8 or more exactly if its decimal digits say so, as long as no digit follows. -/
theorem startsModernMinor_toDigits (n : Nat) {rest : List Char}
    (hrest : ∀ c ∈ rest.head?, isDecimalDigit c = false) :
    startsModernMinor (Nat.toDigits 10 n ++ rest) = true ↔ 8 ≤ n := by
  rcases Nat.lt_or_ge n 10 with hlt | hge
  · have hnext : rest.head?.any isDecimalDigit = false := (Option.any_eq_false _ _).2 hrest
    have hdigit : ∀ m, m < 10 → ((m.digitChar == '8' || m.digitChar == '9') = true ↔ 8 ≤ m) := by
      decide
    rw [Nat.toDigits_of_lt_base hlt, List.singleton_append, startsModernMinor, hnext,
      Bool.and_false, Bool.or_false]
    exact hdigit n hlt
  · -- there are two digits at least, and the pattern asks no more of them
    have hlength : 1 < (Nat.toDigits 10 n).length :=
      Nat.lt_of_not_le fun hle =>
        absurd ((Nat.length_toDigits_le_iff (by decide) (by decide)).1 hle) (by omega)
    have hdigits : ∀ c ∈ Nat.toDigits 10 n, isDecimalDigit c = true := fun c hc =>
      isDecimalDigit_of_isDigit (Nat.isDigit_of_mem_toDigits (by decide) (by decide) hc)
    rcases hn : Nat.toDigits 10 n with _ | ⟨c, _ | ⟨d, more⟩⟩
    · simp [hn] at hlength
    · simp [hn] at hlength
    · rw [hn] at hdigits
      have hc := hdigits c List.mem_cons_self
      have hd := hdigits d (List.mem_cons_of_mem c List.mem_cons_self)
      have hmodern : startsModernMinor (c :: d :: more ++ rest) = true := by
        simp [startsModernMinor, hc, hd]
      exact iff_of_true hmodern (by omega)

/-! ## At the directive -/

theorem isConstraint_iff {c : Char} : isConstraint c = true ↔ c ∈ "^>=~".toList := by
  have hsigns : "^>=~".toList = ['^', '>', '=', '~'] := by decide
  rw [hsigns]
  simp [isConstraint, or_assoc]

theorem isConstraint_of_isBlank {c : Char} (h : isBlank c = true) : isConstraint c = false :=
  of_isBlank (p := fun c => isConstraint c = false) (by decide) h

/-- A constraint and the white space around it are passed, up to a number. -/
theorem afterBlanks_constraint (d : VersionDirective) (rest : List Char)
    (hrest : rest.head? = some '0') :
    afterBlanks ((afterBlanks (d.beforeConstraint ++ (d.constraint ++
      (d.afterConstraint ++ rest)))).dropWhile isConstraint) = rest := by
  have hsolid : ∀ c ∈ rest.head?, isBlank c = false := by
    intro c hc
    rw [hrest] at hc
    obtain rfl := Option.some.inj hc
    decide
  have hplain : ∀ c ∈ rest.head?, isConstraint c = false := by
    intro c hc
    rw [hrest] at hc
    obtain rfl := Option.some.inj hc
    decide
  cases hconstraint : d.constraint with
  | nil =>
    -- the two runs of white space are passed as one
    have hblank : isAllBlank (d.beforeConstraint ++ d.afterConstraint) = true := by
      unfold isAllBlank
      rw [List.all_append, Bool.and_eq_true]
      exact ⟨d.beforeConstraint_blank, d.afterConstraint_blank⟩
    have hnosign : ([] ++ rest).dropWhile isConstraint = rest :=
      dropWhile_append_of_stops (fun c hc => nomatch hc) hplain
    have hnoblank : afterBlanks ([] ++ rest) = rest := afterBlanks_append rfl hsolid
    rw [List.nil_append] at hnosign hnoblank ⊢
    rw [← List.append_assoc, afterBlanks_append hblank hsolid, hnosign, hnoblank]
  | cons sign signs =>
    have hsigns : ∀ c ∈ sign :: signs, isConstraint c = true := fun c hc =>
      isConstraint_iff.2 (d.constraint_subset (hconstraint ▸ hc))
    have hfirst := hsigns sign List.mem_cons_self
    have hsolidsign : ∀ c ∈ (sign :: signs ++ (d.afterConstraint ++ rest)).head?,
        isBlank c = false := by
      intro c hc
      obtain rfl := Option.some.inj hc
      rw [← Bool.not_eq_true]
      intro hblank
      rw [isConstraint_of_isBlank hblank] at hfirst
      cases hfirst
    have hbehind : ∀ c ∈ (d.afterConstraint ++ rest).head?, isConstraint c = false := by
      cases hafter : d.afterConstraint with
      | nil => exact hplain
      | cons blank blanks =>
        intro c hc
        obtain rfl := Option.some.inj hc
        exact isConstraint_of_isBlank (isAllBlank_cons.1 (hafter ▸ d.afterConstraint_blank)).1
    rw [afterBlanks_append d.beforeConstraint_blank hsolidsign,
      dropWhile_append_of_stops hsigns hbehind,
      afterBlanks_append d.afterConstraint_blank hsolid]

/-- The pattern reads a directive up to its minor version. -/
theorem VersionDirective.startsModernPragma_text_append (d : VersionDirective)
    (rest : List Char) :
    startsModernPragma (d.text ++ rest) =
      startsModernMinor (Nat.toDigits 10 d.minor ++ rest) := by
  have hkeyword : after? "pragma" (d.text ++ rest) = some (d.gap ++ ("solidity".toList ++
      (d.beforeConstraint ++ (d.constraint ++ (d.afterConstraint ++ ("0.".toList ++
        (Nat.toDigits 10 d.minor ++ rest))))))) := by
    unfold VersionDirective.text
    rw [after?_eq_some_iff, toList_minor]
    simp only [List.append_assoc]
  have hgap : ∀ s, afterSomeBlanks? (d.gap ++ ("solidity".toList ++ s)) =
      some ("solidity".toList ++ s) := by
    intro s
    refine afterSomeBlanks?_append d.gap_ne_nil d.gap_blank fun c hc => ?_
    obtain rfl := Option.some.inj hc
    decide
  have hlanguage : ∀ s, after? "solidity" ("solidity".toList ++ s) = some s := fun s =>
    after?_eq_some_iff.2 rfl
  have hzero : ∀ s, after? "0." ("0.".toList ++ s) = some s := fun s => after?_eq_some_iff.2 rfl
  -- what comes before the number is passed step by step, as it was put together
  have hnumber := afterBlanks_constraint d ("0.".toList ++ (Nat.toDigits 10 d.minor ++ rest)) rfl
  simp only [startsModernPragma, Option.bind_eq_bind, hkeyword, Option.bind_some, hgap, hlanguage,
    hnumber, hzero, Option.any_some]

/-! ## Elsewhere -/

/-- The text has the word in it, in whatever letter case. A long s is an s too. -/
def HasInAnyCase (word : String) (text : List Char) : Prop :=
  ∃ part, part <:+: text ∧ part.map foldCase = word.toList.map foldCase

theorem mentionsSafeMath_iff {text : List Char} :
    mentionsSafeMath text = true ↔ HasInAnyCase "SafeMath" text := by
  have hword : "safemath".toList = "SafeMath".toList.map foldCase := by decide
  rw [mentionsSafeMath, mentions_iff, List.infix_map_iff, hword, HasInAnyCase]
  exact exists_congr fun part => and_congr_right fun _ => eq_comm

/-- The text bears on versions in no way: it has neither the keyword of a directive nor the name of
the library with checked arithmetic. -/
structure IsSilent (text : List Char) : Prop where
  pragma : ¬"pragma".toList <:+: text
  safeMath : ¬HasInAnyCase "SafeMath" text

theorem isSilent_iff {text : List Char} :
    IsSilent text ↔ mentions "pragma" text = false ∧ mentionsSafeMath text = false := by
  rw [Bool.eq_false_iff, Bool.eq_false_iff, Ne, Ne, mentions_iff, mentionsSafeMath_iff]
  exact ⟨fun h => ⟨h.pragma, h.safeMath⟩, fun h => ⟨h.1, h.2⟩⟩

instance (text : List Char) : Decidable (IsSilent text) := decidable_of_iff _ isSilent_iff.symm

variable {before behind : List Char}

theorem foldCase_of_isDigit {c : Char} (h : c.isDigit = true) : foldCase c = c :=
  of_ascii (p := fun c => c.isDigit = true → foldCase c = c) (by decide) (toNat_lt_of_isDigit h) h

/-- A directive does not make up a mention of the library together with the text around it. -/
theorem mentionsSafeMath_append_text (d : VersionDirective) (hbefore : IsSilent before)
    (hbehind : IsSilent behind) : mentionsSafeMath (before ++ d.text ++ behind) = false := by
  -- an `f` stands nowhere before the point, an `s` nowhere between the point and what follows
  have hfront : 'f' ∉ ("ragma".toList ++ d.front).map foldCase := by
    intro hmem
    obtain ⟨c, hc, hfold⟩ := List.mem_map.1 hmem
    have hmem' : ∀ {l : List Char}, c ∈ l → 'f' ∈ l.map foldCase := fun hc =>
      List.mem_map.2 ⟨c, hc, hfold⟩
    rcases List.mem_append.1 hc with hc | hc
    · exact absurd (hmem' hc) (by decide)
    rcases d.mem_front hc with hblank | hc
    · rw [foldCase_of_isBlank hblank] at hfold
      exact ne_of_isBlank hblank (by decide) hfold
    · exact absurd (hmem' hc) (by decide)
  have hdigits : 's' ∉ (Nat.toDigits 10 d.minor).map foldCase := by
    intro hmem
    obtain ⟨c, hc, hfold⟩ := List.mem_map.1 hmem
    have hdigit := Nat.isDigit_of_mem_toDigits (by decide) (by decide) hc
    rw [foldCase_of_isDigit hdigit] at hfold
    exact absurd (hfold ▸ hdigit) (by decide)
  have hsplit : (before ++ d.text ++ behind).map foldCase = before.map foldCase ++ 'p' ::
      (("ragma".toList ++ d.front).map foldCase ++ '.' ::
        ((Nat.toDigits 10 d.minor).map foldCase ++ behind.map foldCase)) := by
    rw [d.text_eq]
    simp [foldCase]
  rw [Bool.eq_false_iff, Ne, mentionsSafeMath, mentions_iff, hsplit]
  intro hword
  -- the mention lies before the keyword, between the keyword and the point, or behind the point
  rw [isInfix_append_cons_iff (by decide), isInfix_append_cons_iff (by decide)] at hword
  rcases hword with hword | hword | hword
  · exact hbefore.safeMath (mentionsSafeMath_iff.1 (mentions_iff.2 hword))
  · exact hfront (hword.subset (by decide))
  · rw [show "safemath".toList = 's' :: "afemath".toList from rfl,
      cons_isInfix_append_iff hdigits] at hword
    exact hbehind.safeMath (mentionsSafeMath_iff.1 (mentions_iff.2 hword))

/-- The pattern reads the keyword first. -/
theorem exists_of_startsModernPragma {s : List Char} (h : startsModernPragma s = true) :
    ∃ rest, s = 'p' :: ("ragma".toList ++ rest) := by
  unfold startsModernPragma at h
  cases hkeyword : after? "pragma" s with
  | none =>
    rw [hkeyword] at h
    exact absurd h (by decide)
  | some rest => exact ⟨rest, after?_eq_some_iff.1 hkeyword⟩

/-- In a source with one directive the pattern occurs exactly if the version is 0.8 or later. -/
theorem occurs_startsModernPragma_iff (d : VersionDirective) (hbefore : IsSilent before)
    (hbehind : IsSilent behind) (hnumber : ∀ c ∈ behind.head?, isDecimalDigit c = false) :
    occurs startsModernPragma (before ++ d.text ++ behind) = true ↔ 8 ≤ d.minor := by
  have hdirective : startsModernPragma (d.text ++ behind) = true ↔ 8 ≤ d.minor := by
    rw [d.startsModernPragma_text_append, startsModernMinor_toDigits d.minor hnumber]
  constructor
  · rw [occurs_iff]
    rintro ⟨front, rest, hplace, hstarts⟩
    obtain ⟨tail, rfl⟩ := exists_of_startsModernPragma hstarts
    -- the first letter of the keyword does not come again in the directive
    have hp : 'p' ∉ d.front ++ '.' :: Nat.toDigits 10 d.minor := by
      intro hmem
      rcases List.mem_append.1 hmem with hmem | hmem
      · rcases d.mem_front hmem with hblank | hmem
        · exact absurd hblank (by decide)
        · exact absurd hmem (by decide)
      rcases List.mem_cons.1 hmem with hpoint | hmem
      · exact absurd hpoint (by decide)
      · exact absurd (Nat.isDigit_of_mem_toDigits (by decide) (by decide) hmem) (by decide)
    have hrest : ¬ 'p' :: "ragma".toList <:+:
        (d.front ++ '.' :: Nat.toDigits 10 d.minor) ++ behind :=
      mt (cons_isInfix_append_iff hp).1 hbehind.pragma
    -- the pattern was found at the one place of the keyword
    rw [d.text_eq, List.append_assoc, List.cons_append, List.append_assoc] at hplace
    obtain ⟨rfl, rfl⟩ := eq_of_append_cons (by decide) hbefore.pragma hrest hplace
    rw [← hdirective, d.text_eq, List.cons_append, List.append_assoc]
    exact hstarts
  · intro hmodern
    exact occurs_iff.2 ⟨before, d.text ++ behind, List.append_assoc _ _ _, hdirective.2 hmodern⟩

/-! ## Findings -/

/-- A source without protection has the finding of each line with arithmetic, in order. -/
theorem inspect_of_not_isVersionProtected {source : Source}
    (h : isVersionProtected source.text = false) (mode : ScanMode) :
    inspect source mode = (source.lines.toList.filter fun line => isArithmetic mode line.text).map
      fun line => profile.finding (profile.id line.index) .medium line := by
  have hlines : ∀ lines : List Line, lines.flatMap (findingsAt mode) =
      (lines.filter fun line => isArithmetic mode line.text).map
        fun line => profile.finding (profile.id line.index) .medium line := by
    intro lines
    induction lines with
    | nil => rfl
    | cons line lines ih =>
      rw [List.flatMap_cons, ih, findingsAt]
      by_cases harithmetic : isArithmetic mode line.text = true <;> simp [harithmetic]
  rw [inspect, h, if_neg Bool.false_ne_true, hlines]

/-- In a source with one directive and nothing else about versions, the language protects the
arithmetic exactly from version 0.8 on. Then there are no findings in either mode; before it, each
line with arithmetic in the mode has its finding, in order and once. -/
theorem isVersionProtected_iff_modern (d : VersionDirective) (hbefore : IsSilent before)
    (hbehind : IsSilent behind) (hnumber : ∀ c ∈ behind.head?, isDecimalDigit c = false) :
    let source : Source := .ofText (before ++ d.text ++ behind)
    (isVersionProtected source.text = true ↔ 8 ≤ d.minor) ∧
      (8 ≤ d.minor → ∀ mode, inspect source mode = []) ∧
      (d.minor < 8 → ∀ mode, inspect source mode =
        (source.lines.toList.filter fun line => isArithmetic mode line.text).map
          fun line => profile.finding (profile.id line.index) .medium line) := by
  intro source
  have hprotected : isVersionProtected source.text = true ↔ 8 ≤ d.minor := by
    show (mentionsSafeMath (before ++ d.text ++ behind) ||
      occurs startsModernPragma (before ++ d.text ++ behind)) = true ↔ 8 ≤ d.minor
    rw [mentionsSafeMath_append_text d hbefore hbehind, Bool.false_or]
    exact occurs_startsModernPragma_iff d hbefore hbehind hnumber
  refine ⟨hprotected, fun hmodern mode => ?_, fun hold mode => ?_⟩
  · rw [inspect, if_pos (hprotected.2 hmodern)]
  · exact inspect_of_not_isVersionProtected
      (Bool.eq_false_iff.2 fun h => Nat.not_le_of_lt hold (hprotected.1 h)) mode

/-- The minor version 10 is a later one than 8, and 7 an earlier one. -/
theorem isVersionProtected_iff_modern_ten :
    let behind := ";\nx = a + b;".toList
    ∃ modern old : VersionDirective,
      modern.text = "pragma solidity^0.10".toList ∧
      old.text = "pragma\nsolidity >= 0.7".toList ∧
      IsSilent [] ∧ IsSilent behind ∧ (∀ c ∈ behind.head?, isDecimalDigit c = false) ∧
      (∀ mode, inspect (.ofText ([] ++ modern.text ++ behind)) mode = []) ∧
      ∀ mode, (inspect (.ofText ([] ++ old.text ++ behind)) mode).map Finding.line = [3] := by
  intro behind
  let modern : VersionDirective := {
    gap := [' ']
    beforeConstraint := []
    constraint := ['^']
    afterConstraint := []
    minor := 10
    gap_ne_nil := by decide
    gap_blank := by decide
    beforeConstraint_blank := by decide
    constraint_subset := by decide
    afterConstraint_blank := by decide }
  let old : VersionDirective := {
    gap := ['\n']
    beforeConstraint := [' ']
    constraint := ['>', '=']
    afterConstraint := [' ']
    minor := 7
    gap_ne_nil := by decide
    gap_blank := by decide
    beforeConstraint_blank := by decide
    constraint_subset := by decide
    afterConstraint_blank := by decide }
  have hbefore : IsSilent [] := by decide
  have hbehind : IsSilent behind := by decide +kernel
  have hnumber : ∀ c ∈ behind.head?, isDecimalDigit c = false := by
    intro c hc
    obtain rfl := Option.some.inj hc
    decide
  refine ⟨modern, old, by decide +kernel, by decide +kernel, hbefore, hbehind, hnumber,
    fun mode => ?_, fun mode => ?_⟩
  · exact (isVersionProtected_iff_modern modern hbefore hbehind hnumber).2.1 (by decide) mode
  · rw [(isVersionProtected_iff_modern old hbefore hbehind hnumber).2.2 (by decide) mode]
    cases mode <;> decide +kernel

end ContractAudit.Detector.Overflow
