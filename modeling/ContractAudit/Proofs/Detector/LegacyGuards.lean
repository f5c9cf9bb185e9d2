import ContractAudit.Proofs.Detector.ScopedGuards
import ContractAudit.Proofs.Report.AtLine
import ContractAudit.Proofs.Text.Runs
import Mathlib.Order.Bounds.Defs

/-!
# The functions that legacy mode reports

Legacy mode looks for a guard from the header of a function on, and gives up after ten lines, at the
end of the source, or at the first line with a closing brace, whichever comes first. Here this is
said without the scan: a function is reported exactly if none of these lines holds a guard.

* **Headers and guards** are told by how they are written: the keyword, the name, the parameters and
  the visibility with white space of any length between them. The scan passes the white space, the
  name and the parameters as whole runs, and `Text.Runs` says why that finds all of them.
* **The last line** that is searched (`IsLastSearched`) still counts. On the header it makes no
  difference that the scan asks it for a guard twice.

Main results: `declaresPublicFunction_iff`, `hasGuard_iff`, `isGuarded_legacy_iff`, and
`reported_iff_unguarded`, the exact answer of the detector at each line.
-/

namespace ContractAudit.Detector.AccessControl

open Text

/-! ## Headers -/

/-- The header of a function that others can call, up to its visibility. -/
structure Header where
  gap : List Char
  name : List Char
  nameGap : List Char
  parameters : List Char
  visibilityGap : List Char
  visibility : List Char
  gap_ne_nil : gap ≠ []
  gap_blank : isAllBlank gap = true
  name_ne_nil : name ≠ []
  name_word : ∀ c ∈ name, isWord c = true
  nameGap_blank : isAllBlank nameGap = true
  parameters_open : ')' ∉ parameters
  visibilityGap_blank : isAllBlank visibilityGap = true
  visibility_open : visibility = "public".toList ∨ visibility = "external".toList

/-- The header as it is written. -/
def Header.text (h : Header) : List Char :=
  "function".toList ++ h.gap ++ h.name ++ h.nameGap ++ '(' :: h.parameters ++
    ')' :: h.visibilityGap ++ h.visibility

/-- An opening parenthesis is found behind white space. -/
theorem after?_opening {gap : List Char} (hgap : isAllBlank gap = true) (rest : List Char) :
    after? "(" (afterBlanks (gap ++ '(' :: rest)) = some rest := by
  rw [afterBlanks_append hgap fun c hc => by cases hc; rfl]
  rfl

theorem Header.startsPublicFunction_text_append (h : Header) (after : List Char) :
    startsPublicFunction (h.text ++ after) = true := by
  -- each run ends where the header goes on with a character of another kind
  have hgap : ∀ rest, afterSomeBlanks? (h.gap ++ (h.name ++ rest)) = some (h.name ++ rest) := by
    intro rest
    refine afterSomeBlanks?_append h.gap_ne_nil h.gap_blank fun c hc => ?_
    rw [List.head?_append_of_ne_nil _ h.name_ne_nil] at hc
    exact isBlank_of_isWord (h.name_word c (List.mem_of_mem_head? hc))
  have hname : ∀ rest, afterSomeWord? (h.name ++ (h.nameGap ++ '(' :: rest)) =
      some (h.nameGap ++ '(' :: rest) := by
    intro rest
    refine afterSomeWord?_append h.name_ne_nil h.name_word fun c hc => ?_
    cases hgap : h.nameGap with
    | nil =>
      rw [hgap] at hc
      cases hc
      decide
    | cons d gap =>
      have hd := (isAllBlank_cons.1 (hgap ▸ h.nameGap_blank)).1
      rw [hgap] at hc
      cases hc
      exact isWord_of_isBlank hd
  have hnameGap : ∀ rest, after? "(" (afterBlanks (h.nameGap ++ '(' :: rest)) = some rest :=
    after?_opening h.nameGap_blank
  have hparameters : ∀ rest,
      after? ")" ((h.parameters ++ ')' :: rest).dropWhile (· != ')')) = some rest :=
    fun rest => (afterChars?_dropWhile_eq_some_iff ')').2 ⟨h.parameters, h.parameters_open, rfl⟩
  have hvisibilityGap : afterBlanks (h.visibilityGap ++ (h.visibility ++ after)) =
      h.visibility ++ after := by
    refine afterBlanks_append h.visibilityGap_blank fun c hc => ?_
    rcases h.visibility_open with hopen | hopen <;> rw [hopen] at hc <;> cases hc <;> rfl
  have hvisible : "public".toList <+: h.visibility ++ after ∨
      "external".toList <+: h.visibility ++ after := by
    rcases h.visibility_open with hopen | hopen <;> rw [hopen]
    · exact Or.inl (List.prefix_append _ after)
    · exact Or.inr (List.prefix_append _ after)
  unfold Header.text
  simp only [startsPublicFunction, Option.any_eq_true, Option.bind_eq_bind,
    Option.bind_eq_some_iff, Option.some.injEq, Bool.or_eq_true, startsWith_iff, List.append_assoc,
    List.cons_append]
  exact ⟨_, ⟨_, after?_eq_some_iff.2 rfl, _, hgap _, _, hname _, _, hnameGap _, _, hparameters _,
    hvisibilityGap⟩, hvisible⟩

theorem exists_header_of_startsPublicFunction {s : List Char}
    (h : startsPublicFunction s = true) : ∃ header : Header, header.text <+: s := by
  simp only [startsPublicFunction, Option.any_eq_true, Option.bind_eq_bind,
    Option.bind_eq_some_iff, Option.some.injEq, Bool.or_eq_true, startsWith_iff] at h
  obtain ⟨_, ⟨s₁, hkeyword, s₂, hgap, s₃, hname, s₄, hopening, s₅, hclosing, rfl⟩, hvisibility⟩ := h
  obtain ⟨gap, gap_ne_nil, gap_blank, rfl⟩ := exists_of_afterSomeBlanks? hgap
  obtain ⟨name, name_ne_nil, name_word, rfl⟩ := exists_of_afterSomeWord? hname
  obtain ⟨nameGap, nameGap_blank, hnameGap⟩ := exists_append_afterBlanks s₃
  obtain ⟨parameters, parameters_open, rfl⟩ :=
    (afterChars?_dropWhile_eq_some_iff ')').1 hclosing
  obtain ⟨visibilityGap, visibilityGap_blank, hvisibilityGap⟩ := exists_append_afterBlanks s₅
  obtain ⟨visibility, visibility_open, after, hafter⟩ : ∃ visibility,
      (visibility = "public".toList ∨ visibility = "external".toList) ∧
        visibility <+: afterBlanks s₅ := by
    rcases hvisibility with h | h
    · exact ⟨_, Or.inl rfl, h⟩
    · exact ⟨_, Or.inr rfl, h⟩
  refine ⟨{ gap, name, nameGap, parameters, visibilityGap, visibility, gap_ne_nil, gap_blank,
            name_ne_nil, name_word, nameGap_blank, parameters_open, visibilityGap_blank,
            visibility_open }, after, ?_⟩
  have hs₃ : s₃ = nameGap ++ '(' :: (parameters ++ ')' :: s₅) := by
    rw [hnameGap]
    exact congrArg (nameGap ++ ·) (after?_eq_some_iff.1 hopening)
  have hs₅ : s₅ = visibilityGap ++ (visibility ++ after) := by
    rw [hvisibilityGap, hafter]
  rw [after?_eq_some_iff.1 hkeyword, hs₃, hs₅]
  unfold Header.text
  simp only [List.append_assoc, List.cons_append]

theorem declaresPublicFunction_iff {text : List Char} :
    declaresPublicFunction text = true ↔ ∃ header : Header, header.text <:+: text := by
  refine occurs_iff_isInfix fun s => ⟨exists_header_of_startsPublicFunction, ?_⟩
  rintro ⟨header, after, rfl⟩
  exact header.startsPublicFunction_text_append after

/-! ## Guards -/

/-- What guards a function, with the white space in a requirement on the sender. -/
inductive Guard
  | onlyOwner
  | modifier
  | requirement (gap argumentGap : List Char) (gap_blank : isAllBlank gap = true)
    (argumentGap_blank : isAllBlank argumentGap = true)

/-- The guard as it is written. -/
def Guard.text : Guard → List Char
  | .onlyOwner => "onlyOwner".toList
  | .modifier => "modifier".toList
  | .requirement gap argumentGap _ _ =>
    "require".toList ++ gap ++ '(' :: argumentGap ++ "msg.sender".toList

theorem startsSenderCheck_iff {s : List Char} :
    startsSenderCheck s = true ↔ ∃ gap argumentGap, isAllBlank gap = true ∧
      isAllBlank argumentGap = true ∧
        "require".toList ++ gap ++ '(' :: argumentGap ++ "msg.sender".toList <+: s := by
  constructor
  · intro h
    unfold startsSenderCheck at h
    split at h
    · rename_i s₁ hkeyword
      split at h
      · rename_i s₂ hopening
        obtain ⟨gap, hgap, hs₁⟩ := exists_append_afterBlanks s₁
        obtain ⟨argumentGap, hargument, hs₂⟩ := exists_append_afterBlanks s₂
        obtain ⟨after, hafter⟩ := startsWith_iff.1 h
        refine ⟨gap, argumentGap, hgap, hargument, after, ?_⟩
        rw [after?_eq_some_iff.1 hkeyword, hs₁, after?_eq_some_iff.1 hopening, hs₂, ← hafter]
        simp only [List.append_assoc, List.cons_append]
        rfl
      · cases h
    · cases h
  · rintro ⟨gap, argumentGap, hgap, hargument, after, rfl⟩
    have hsender : afterBlanks (argumentGap ++ ("msg.sender".toList ++ after)) =
        "msg.sender".toList ++ after :=
      afterBlanks_append hargument fun c hc => by cases hc; rfl
    simp only [List.append_assoc, List.cons_append]
    unfold startsSenderCheck
    rw [after?_eq_some_iff.2 rfl]
    simp only [after?_opening hgap, hsender]
    exact startsWith_iff.2 (List.prefix_append _ after)

theorem startsGuard_iff {s : List Char} :
    startsGuard s = true ↔ ∃ guard : Guard, guard.text <+: s := by
  simp only [startsGuard, Bool.or_eq_true, startsWith_iff, startsSenderCheck_iff]
  constructor
  · rintro ((h | ⟨gap, argumentGap, hgap, hargument, h⟩) | h)
    · exact ⟨.onlyOwner, h⟩
    · exact ⟨.requirement gap argumentGap hgap hargument, h⟩
    · exact ⟨.modifier, h⟩
  · rintro ⟨guard, h⟩
    cases guard with
    | onlyOwner => exact Or.inl (Or.inl h)
    | modifier => exact Or.inr h
    | requirement gap argumentGap hgap hargument =>
      exact Or.inl (Or.inr ⟨gap, argumentGap, hgap, hargument, h⟩)

theorem hasGuard_iff {text : List Char} :
    hasGuard text = true ↔ ∃ guard : Guard, guard.text <:+: text :=
  occurs_iff_isInfix fun _ => startsGuard_iff

/-! ## The lines that are searched -/

/-- Line `e` is the last one that is searched for a guard of the function at line `i`: the tenth
line from the header on, the last line of the source, or the first one with a closing brace,
whichever comes first. -/
def IsLastSearched (lines : List Line) (i e : Nat) : Prop :=
  IsLeast {j | i ≤ j ∧ (j = i + 9 ∨ j + 1 = lines.length ∨
    ∃ line, lines[j]? = some line ∧ '\x7d' ∈ line.text)} e

theorem exists_isLastSearched (lines : List Line) (i : Nat) : ∃ e, IsLastSearched lines i e := by
  classical
  have hne : ∃ j, i ≤ j ∧ (j = i + 9 ∨ j + 1 = lines.length ∨
      ∃ line, lines[j]? = some line ∧ '\x7d' ∈ line.text) :=
    ⟨i + 9, Nat.le_add_right i 9, Or.inl rfl⟩
  exact ⟨Nat.find hne, Nat.find_spec hne, fun j hj => Nat.find_min' hne hj⟩

theorem isGuarded_legacy_iff {lines : Array Line} {i e : Nat}
    (he : IsLastSearched lines.toList i e) :
    isGuarded lines .legacy i = true ↔
      ∃ j guard, i ≤ j ∧ j ≤ e ∧ lines.toList[j]? = some guard ∧ hasGuard guard.text = true := by
  obtain ⟨⟨hle, hends⟩, hleast⟩ := he
  have hwindow : isGuarded lines .legacy i =
      guardedBeforeClosing ((lines.toList.drop i).take window) := by
    rw [← linesFrom_natCast]
    rfl
  rw [hwindow, guardedBeforeClosing_iff]
  constructor
  · rintro ⟨k, guard, hk, hguard, hbefore⟩
    rw [List.getElem?_take] at hk
    split at hk
    · rename_i hlt
      rw [List.getElem?_drop] at hk
      refine ⟨i + k, guard, Nat.le_add_right i k, ?_, hk, hguard⟩
      by_contra hpast
      -- the search has ended above the guard, by one of its three rules
      rcases hends with rfl | hlast | ⟨line, hline, hcloses⟩
      · exact hpast (Nat.add_le_add_left (Nat.le_of_lt_succ hlt) i)
      · have hlength := (List.getElem?_eq_some_iff.1 hk).1
        omega
      · refine hbefore line ?_ hcloses
        apply List.mem_of_getElem? (i := e - i)
        have hplace : i + (e - i) = e := by omega
        have hwithin : e - i < window := by omega
        rw [List.take_take, List.getElem?_take, if_pos (by omega), List.getElem?_drop, hplace]
        exact hline
    · cases hk
  · rintro ⟨j, guard, hij, hje, hguardAt, hguard⟩
    have hten : e ≤ i + 9 := hleast ⟨Nat.le_add_right i 9, Or.inl rfl⟩
    have hwithin : j - i < window := by
      have hwindow : window = 10 := rfl
      omega
    have hplace : i + (j - i) = j := by omega
    refine ⟨j - i, guard, ?_, hguard, fun line hline hcloses => ?_⟩
    · rw [List.getElem?_take, if_pos hwithin, List.getElem?_drop, hplace]
      exact hguardAt
    · -- a closing brace above the guard would have ended the search there
      obtain ⟨m, hm⟩ := List.getElem?_of_mem hline
      rw [List.take_take, List.getElem?_take] at hm
      split at hm
      · rename_i hlt
        rw [List.getElem?_drop] at hm
        have hend : e ≤ i + m := hleast ⟨Nat.le_add_right i m, Or.inr (Or.inr ⟨line, hm, hcloses⟩)⟩
        omega
      · cases hm

/-! ## Reported functions -/

/-- **The answer of legacy mode.** A line is reported exactly if it holds the header of a function
that others can call and no line from it to the last one that is searched holds a guard. It is then
reported once. -/
theorem reported_iff_unguarded (source : List Char) (i : Fin (splitLines source).length) :
    ∃ e, IsLastSearched (splitLines source) i e ∧
      let found := standingAt (i + 1) (inspect (.ofText source) .legacy)
      (found ≠ [] ↔ (∃ header : Header, header.text <:+: ((splitLines source).get i).text) ∧
        ∀ (j : Nat) line, i ≤ j → j ≤ e → (splitLines source)[j]? = some line →
          ¬∃ guard : Guard, guard.text <:+: line.text) ∧
      (found ≠ [] →
        found = [profile.finding (profile.id i) .high ((splitLines source).get i)]) := by
  obtain ⟨e, he⟩ := exists_isLastSearched (splitLines source) i
  refine ⟨e, he, ?_⟩
  intro found
  have hfound : found =
      findingsAt (Source.ofText source).lines .legacy ((splitLines source).get i) :=
    standingAt_flatMap (fun line => (reportsAt_ite profile line .high _).standAt) i
  rw [findingsAt, index_get_splitLines] at hfound
  obtain ⟨hreported, honce⟩ := reported_of_eq_ite hfound
  refine ⟨?_, honce⟩
  rw [hreported, Bool.and_eq_true, Bool.and_eq_true, Bool.not_eq_true', Bool.not_eq_true',
    and_assoc, declaresPublicFunction_iff]
  refine and_congr_right fun _ => ?_
  have hguarded : isGuarded (Source.ofText source).lines .legacy i = true ↔ _ :=
    isGuarded_legacy_iff he
  constructor
  · rintro ⟨-, hunguarded⟩ j line hij hje hline hguard
    rw [← Bool.not_eq_true] at hunguarded
    exact hunguarded (hguarded.2 ⟨j, line, hij, hje, hline, hasGuard_iff.2 hguard⟩)
  · intro hunguarded
    rw [← Bool.not_eq_true, ← Bool.not_eq_true]
    refine ⟨fun hguard => ?_, fun hsearched => ?_⟩
    · -- the header is searched first
      exact hunguarded i _ (Nat.le_refl _) he.1.1 (List.getElem?_eq_getElem i.isLt)
        (hasGuard_iff.1 hguard)
    · obtain ⟨j, line, hij, hje, hline, hguard⟩ := hguarded.1 hsearched
      exact hunguarded j line hij hje hline (hasGuard_iff.1 hguard)

end ContractAudit.Detector.AccessControl
