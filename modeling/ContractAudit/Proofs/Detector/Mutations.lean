import ContractAudit.Detector.Reentrancy
import ContractAudit.Proofs.Text.Runs
import Mathlib.Data.List.Infix

/-!
# What changes state

A call is critical when a line of the window after it changes state. The test reads a line from
every place on; here it is told by what stands in the line.

* **Steps.** A word character is followed by `++` or by `--`.
* **Assignments.** There is a `=` that no other `=` follows, and the text before it ends in a
  *target*: a word character, at most one index in brackets without a closing bracket inside, white
  space, and at most one of the operators that an assignment may carry.

The signs of a comparison are no assignments: either another `=` follows, or what stands before the
sign (`=`, `!`, `<` or `>`) ends no target. An arrow is not told from an assignment, because only a
second `=` is looked for behind the sign. So `address => uint` assigns to `address`.

Main results:

* `mutatesState_iff`: the two ways to change state.
* `severity_eq_critical_iff`: a finding is critical by the lines of its window.
* `comparesOnly_mutates_iff`: lines with comparisons and arrows alone.
-/

namespace ContractAudit.Detector.Reentrancy

open Text

/-! ## Updates -/

theorem startsAssignment_iff {s : List Char} :
    startsAssignment s = true ↔ ∃ after, s = '=' :: after ∧ after.head? ≠ some '=' := by
  constructor
  · intro h
    match s with
    | [] => cases h
    | c :: after =>
      by_cases hc : c = '='
      · subst hc
        exact ⟨after, rfl, by simpa [startsAssignment] using h⟩
      · rw [startsAssignment] at h
        · cases h
        · exact fun rest hrest => hc (List.cons.inj hrest).1
  · rintro ⟨after, rfl, h⟩
    simpa [startsAssignment] using h

/-- One of the operators that an assignment may carry before its sign, or none. -/
def IsOperator (operator : List Char) : Prop :=
  operator = [] ∨ ∃ o, isCompound o = true ∧ operator = [o]

theorem isCompound_of_isBlank {c : Char} (h : isBlank c = true) : isCompound c = false :=
  of_isBlank (p := fun c => isCompound c = false) (by decide) h

theorem startsUpdate_iff {s : List Char} :
    startsUpdate s = true ↔ ∃ blanks operator after, s = blanks ++ operator ++ '=' :: after ∧
      isAllBlank blanks = true ∧ IsOperator operator ∧ after.head? ≠ some '=' := by
  constructor
  · intro h
    obtain ⟨blanks, hblanks, hsplit⟩ := exists_append_afterBlanks s
    rw [startsUpdate] at h
    split at h
    · rename_i c rest hrest
      rw [hrest] at hsplit
      split at h
      · rename_i hc
        obtain ⟨after, rfl, hafter⟩ := startsAssignment_iff.1 h
        refine ⟨blanks, [c], after, ?_, hblanks, Or.inr ⟨c, hc, rfl⟩, hafter⟩
        rw [hsplit, List.append_assoc, List.singleton_append]
      · obtain ⟨after, hsign, hafter⟩ := startsAssignment_iff.1 h
        refine ⟨blanks, [], after, ?_, hblanks, Or.inl rfl, hafter⟩
        rw [hsplit, hsign, List.append_nil]
    · cases h
  · rintro ⟨blanks, operator, after, rfl, hblanks, hoperator, hafter⟩
    have hsign : startsAssignment ('=' :: after) = true :=
      startsAssignment_iff.2 ⟨after, rfl, hafter⟩
    rw [List.append_assoc, startsUpdate]
    rcases hoperator with rfl | ⟨o, ho, rfl⟩
    · rw [afterBlanks_append hblanks fun c hc => by cases hc; rfl]
      exact hsign
    · have hblank : isBlank o = false := by
        rw [← Bool.not_eq_true]
        intro h
        rw [isCompound_of_isBlank h] at ho
        cases ho
      rw [afterBlanks_append hblanks fun c hc => by cases hc; exact hblank]
      simp only [List.singleton_append, ho, if_true, hsign]

theorem afterIndex?_eq_some_iff {s rest : List Char} :
    afterIndex? s = some rest ↔ ∃ key, ']' ∉ key ∧ s = '[' :: key ++ ']' :: rest := by
  rw [afterIndex?, Option.bind_eq_some_iff]
  constructor
  · rintro ⟨s, hopening, hclosing⟩
    obtain rfl := after?_eq_some_iff.1 hopening
    obtain ⟨key, hkey, rfl⟩ := (afterChars?_dropWhile_eq_some_iff ']').1 hclosing
    exact ⟨key, hkey, rfl⟩
  · rintro ⟨key, hkey, rfl⟩
    exact ⟨key ++ ']' :: rest, rfl, (afterChars?_dropWhile_eq_some_iff ']').2 ⟨key, hkey, rfl⟩⟩

/-! ## Targets -/

/-- One index in brackets without a closing bracket inside, or none. -/
def IsOneIndex (index : List Char) : Prop :=
  index = [] ∨ ∃ key, ']' ∉ key ∧ index = '[' :: key ++ [']']

/-- The text ends in what a sign of assignment behind it assigns to: a word character, at most one
index, white space, and at most one operator. -/
def EndsInTarget (text : List Char) : Prop :=
  ∃ start c index blanks operator, text = start ++ c :: (index ++ blanks ++ operator) ∧
    isWord c = true ∧ IsOneIndex index ∧ isAllBlank blanks = true ∧ IsOperator operator

theorem EndsInTarget.append {text : List Char} (h : EndsInTarget text) (start : List Char) :
    EndsInTarget (start ++ text) := by
  obtain ⟨start', c, index, blanks, operator, rfl, h⟩ := h
  exact ⟨start ++ start', c, index, blanks, operator, (List.append_assoc ..).symm, h⟩

/-- What a target may end in. -/
theorem EndsInTarget.exists_concat {text : List Char} (h : EndsInTarget text) :
    ∃ init c, text = init ++ [c] ∧
      (isWord c = true ∨ c = ']' ∨ isBlank c = true ∨ isCompound c = true) := by
  obtain ⟨start, c, index, blanks, operator, rfl, hc, hindex, hblanks, hoperator⟩ := h
  rcases hoperator with rfl | ⟨o, ho, rfl⟩
  · rcases List.eq_nil_or_concat' blanks with rfl | ⟨blanks, b, rfl⟩
    · rcases hindex with rfl | ⟨key, -, rfl⟩
      · exact ⟨start, c, by simp, Or.inl hc⟩
      · exact ⟨start ++ c :: '[' :: key, ']', by simp, Or.inr (Or.inl rfl)⟩
    · have hb : isBlank b = true := List.all_eq_true.1 hblanks b (by simp)
      exact ⟨start ++ c :: (index ++ blanks), b, by simp, Or.inr (Or.inr (Or.inl hb))⟩
  · exact ⟨start ++ c :: (index ++ blanks), o, by simp, Or.inr (Or.inr (Or.inr ho))⟩

/-! ## Changes of state -/

/-- A word character is stepped up or down. -/
def Steps (text : List Char) : Prop :=
  ∃ c, isWord c = true ∧ (c :: "++".toList <:+: text ∨ c :: "--".toList <:+: text)

/-- A target is assigned. -/
def Assigns (text : List Char) : Prop :=
  ∃ before after, text = before ++ '=' :: after ∧ EndsInTarget before ∧ after.head? ≠ some '='

theorem cons_isInfix_iff {α : Type} {c : α} {part text : List α} :
    c :: part <:+: text ↔ ∃ before rest, text = before ++ c :: rest ∧ part <+: rest := by
  constructor
  · rintro ⟨before, behind, h⟩
    exact ⟨before, part ++ behind, by simp [← h], List.prefix_append part behind⟩
  · rintro ⟨before, rest, rfl, h⟩
    exact (List.cons_prefix_cons.2 ⟨rfl, h⟩).isInfix.trans (List.suffix_append before _).isInfix

theorem steps_iff {text : List Char} :
    Steps text ↔ ∃ before c rest, text = before ++ c :: rest ∧ isWord c = true ∧
      ("++".toList <+: rest ∨ "--".toList <+: rest) := by
  simp only [Steps, cons_isInfix_iff]
  constructor
  · rintro ⟨c, hc, ⟨before, rest, htext, hup⟩ | ⟨before, rest, htext, hdown⟩⟩
    · exact ⟨before, c, rest, htext, hc, Or.inl hup⟩
    · exact ⟨before, c, rest, htext, hc, Or.inr hdown⟩
  · rintro ⟨before, c, rest, htext, hc, hup | hdown⟩
    · exact ⟨c, hc, Or.inl ⟨before, rest, htext, hup⟩⟩
    · exact ⟨c, hc, Or.inr ⟨before, rest, htext, hdown⟩⟩

/-- An update follows the name, directly or after one index. -/
def IsUpdated (behind : List Char) : Prop :=
  ∃ index update, behind = index ++ update ∧ IsOneIndex index ∧ startsUpdate update = true

theorem isUpdated_iff {behind : List Char} :
    IsUpdated behind ↔
      startsUpdate behind = true ∨ (afterIndex? behind).any startsUpdate = true := by
  rw [Option.any_eq_true]
  constructor
  · rintro ⟨index, update, rfl, rfl | ⟨key, hkey, rfl⟩, hupdate⟩
    · exact Or.inl hupdate
    · exact Or.inr ⟨update, afterIndex?_eq_some_iff.2 ⟨key, hkey, by simp⟩, hupdate⟩
  · rintro (hupdate | ⟨update, hindex, hupdate⟩)
    · exact ⟨[], behind, rfl, Or.inl rfl, hupdate⟩
    · obtain ⟨key, hkey, rfl⟩ := afterIndex?_eq_some_iff.1 hindex
      exact ⟨'[' :: key ++ [']'], update, by simp, Or.inr ⟨key, hkey, rfl⟩, hupdate⟩

theorem startsMutation_cons_iff {c : Char} {rest : List Char} :
    startsMutation (c :: rest) = true ↔
      isWord c = true ∧ (IsUpdated rest ∨ "++".toList <+: rest ∨ "--".toList <+: rest) := by
  simp only [startsMutation, Bool.and_eq_true, Bool.or_eq_true, startsWith_iff, isUpdated_iff,
    or_assoc]

theorem assigns_iff {text : List Char} :
    Assigns text ↔
      ∃ before c rest, text = before ++ c :: rest ∧ isWord c = true ∧ IsUpdated rest := by
  constructor
  · rintro ⟨_, after, rfl, ⟨start, c, index, blanks, operator, rfl, hc, hindex, hblanks, hoperator⟩,
      hafter⟩
    have hupdate : startsUpdate (blanks ++ operator ++ '=' :: after) = true :=
      startsUpdate_iff.2 ⟨blanks, operator, after, rfl, hblanks, hoperator, hafter⟩
    exact ⟨start, c, index ++ (blanks ++ operator ++ '=' :: after), by simp, hc, index, _, rfl,
      hindex, hupdate⟩
  · rintro ⟨before, c, _, rfl, hc, index, update, rfl, hindex, hupdate⟩
    obtain ⟨blanks, operator, after, rfl, hblanks, hoperator, hafter⟩ := startsUpdate_iff.1 hupdate
    exact ⟨before ++ c :: (index ++ blanks ++ operator), after, by simp,
      ⟨before, c, index, blanks, operator, rfl, hc, hindex, hblanks, hoperator⟩, hafter⟩

/-- A line changes state by steps and by assignments. -/
theorem mutatesState_iff {text : List Char} :
    mutatesState text = true ↔ Steps text ∨ Assigns text := by
  rw [mutatesState, occurs_iff, steps_iff, assigns_iff]
  constructor
  · rintro ⟨before, rest, rfl, h⟩
    cases rest with
    | nil => cases h
    | cons c rest =>
      obtain ⟨hc, hupdated | hsteps⟩ := startsMutation_cons_iff.1 h
      · exact Or.inr ⟨before, c, rest, rfl, hc, hupdated⟩
      · exact Or.inl ⟨before, c, rest, rfl, hc, hsteps⟩
  · rintro (⟨before, c, rest, rfl, hc, hsteps⟩ | ⟨before, c, rest, rfl, hc, hupdated⟩)
    · exact ⟨before, c :: rest, rfl, startsMutation_cons_iff.2 ⟨hc, Or.inr hsteps⟩⟩
    · exact ⟨before, c :: rest, rfl, startsMutation_cons_iff.2 ⟨hc, Or.inl hupdated⟩⟩

/-! ## Severity -/

theorem severityAt_eq_critical_iff {lines : Array Line} {mode : ScanMode} {index : Nat} :
    severityAt lines mode index = .critical ↔
      ∃ other ∈ windowAfter lines mode index, mutatesState other.text = true := by
  rw [← List.any_eq_true, severityAt]
  split <;> simp_all

theorem severity_of_mem_findingsAt {lines : Array Line} {mode : ScanMode} {call : Line}
    {f : Finding} (h : f ∈ findingsAt lines mode call) :
    f.severity = severityAt lines mode call.index := by
  rw [findingsAt] at h
  split at h
  · cases h
  · obtain ⟨n, -, rfl⟩ := List.mem_map.1 h
    rfl

/-- A call with a line in its window is critical by this or by another line. -/
theorem severity_eq_critical_iff {lines : Array Line} {mode : ScanMode} {call other : Line}
    (hother : other ∈ windowAfter lines mode call.index) {f : Finding}
    (hf : f ∈ findingsAt lines mode call) :
    f.severity = .critical ↔ mutatesState other.text = true ∨
      ∃ rest ∈ windowAfter lines mode call.index,
        rest ≠ other ∧ mutatesState rest.text = true := by
  rw [severity_of_mem_findingsAt hf, severityAt_eq_critical_iff]
  constructor
  · rintro ⟨rest, hrest, hmutates⟩
    by_cases hsame : rest = other
    · exact Or.inl (hsame ▸ hmutates)
    · exact Or.inr ⟨rest, hrest, hsame, hmutates⟩
  · rintro (hmutates | ⟨rest, hrest, -, hmutates⟩)
    · exact ⟨other, hother, hmutates⟩
    · exact ⟨rest, hrest, hmutates⟩

/-! ## Comparisons and arrows -/

/-- The sign `=` between the two texts belongs to `==`, `!=`, `<=`, `>=` or `=>`. -/
def BelongsToToken (before after : List Char) : Prop :=
  before.getLast? ∈ "=!<>".toList.map some ∨ after.head? ∈ "=>".toList.map some

instance (before after : List Char) : Decidable (BelongsToToken before after) :=
  inferInstanceAs (Decidable (_ ∨ _))

/-- Nothing in the text but comparisons and arrows looks like an assignment or a step. -/
structure ComparesOnly (text : List Char) : Prop where
  up : ¬"++".toList <:+: text
  down : ¬"--".toList <:+: text
  signs : ∀ before after, text = before ++ '=' :: after → BelongsToToken before after

/-- The signs of a text are those of its prefixes that `=` follows. -/
theorem forall_signs_iff {P : List Char → List Char → Prop} {text : List Char} :
    (∀ before ∈ text.inits, (text.drop before.length).head? = some '=' →
      P before (text.drop (before.length + 1))) ↔
    ∀ before after, text = before ++ '=' :: after → P before after := by
  constructor
  · rintro h before after rfl
    have hbefore := h before (by simp) (by simp)
    rwa [← List.drop_drop, List.drop_left] at hbefore
  · intro h before hbefore hhead
    obtain ⟨rest, rfl⟩ := List.mem_inits _ _ |>.1 hbefore
    rw [List.drop_left] at hhead
    obtain ⟨after, rfl⟩ := List.head?_eq_some_iff.1 hhead
    rw [← List.drop_drop, List.drop_left]
    exact h before after rfl

instance (text : List Char) : Decidable (ComparesOnly text) :=
  decidable_of_iff (¬"++".toList <:+: text ∧ ¬"--".toList <:+: text ∧
      ∀ before ∈ text.inits, (text.drop before.length).head? = some '=' →
        BelongsToToken before (text.drop (before.length + 1))) (by
    rw [forall_signs_iff]
    exact ⟨fun ⟨up, down, signs⟩ => ⟨up, down, signs⟩, fun ⟨up, down, signs⟩ => ⟨up, down, signs⟩⟩)

/-- The text has an arrow with a target before it. -/
def HasArrowAfterTarget (text : List Char) : Prop :=
  ∃ before after, text = before ++ "=>".toList ++ after ∧ EndsInTarget before

theorem mutatesState_iff_of_comparesOnly {text : List Char} (h : ComparesOnly text) :
    mutatesState text = true ↔ HasArrowAfterTarget text := by
  rw [mutatesState_iff]
  constructor
  · rintro (⟨c, -, hup | hdown⟩ | ⟨before, after, rfl, htarget, hafter⟩)
    · exact absurd ((List.suffix_cons c _).isInfix.trans hup) h.up
    · exact absurd ((List.suffix_cons c _).isInfix.trans hdown) h.down
    · rcases h.signs before after rfl with hlast | hhead
      · -- no target ends in the first character of a comparison
        obtain ⟨init, c, rfl, hc⟩ := htarget.exists_concat
        have hcases : c = '=' ∨ c = '!' ∨ c = '<' ∨ c = '>' := by
          simpa [List.getLast?_concat] using hlast
        exact absurd hc (by rcases hcases with rfl | rfl | rfl | rfl <;> decide)
      · have hcases : after.head? = some '=' ∨ after.head? = some '>' := by simpa using hhead
        obtain ⟨rest, rfl⟩ := List.head?_eq_some_iff.1 (hcases.resolve_left hafter)
        exact ⟨before, rest, by simp, htarget⟩
  · rintro ⟨before, after, rfl, htarget⟩
    exact Or.inr ⟨before, '>' :: after, by simp, htarget, by simp⟩

/-- **Comparisons.** A line on which nothing but comparisons and arrows looks like an assignment
changes state exactly if an arrow has a target before it. So, in either mode, a call with such a line
in its window is critical by such an arrow or by another line. -/
theorem comparesOnly_mutates_iff {text : List Char} (h : ComparesOnly text) :
    (mutatesState text = true ↔ HasArrowAfterTarget text) ∧
    ∀ (lines : Array Line) (mode : ScanMode) (call other : Line),
      other ∈ windowAfter lines mode call.index → other.text = text →
      ∀ f ∈ findingsAt lines mode call, f.severity = .critical ↔ HasArrowAfterTarget text ∨
        ∃ rest ∈ windowAfter lines mode call.index,
          rest ≠ other ∧ mutatesState rest.text = true := by
  have hiff := mutatesState_iff_of_comparesOnly h
  refine ⟨hiff, fun lines mode call other hother htext f hf => ?_⟩
  rw [severity_eq_critical_iff hother hf, htext, hiff]

/-- A line with every sign of comparison does not make the call before it critical. -/
theorem comparesOnly_mutates_iff_signs :
    let comparisons := "require(a == b && c[d] >= e || f <= g || h != i);".toList
    ComparesOnly comparisons ∧ ¬HasArrowAfterTarget comparisons ∧
      mutatesState comparisons = false ∧
      ∀ mode,
        let call : Line := ⟨1, "j.send(1);".toList⟩
        let findings := findingsAt #[call, ⟨2, comparisons⟩] mode call
        findings ≠ [] ∧ ∀ f ∈ findings, f.severity ≠ .critical := by
  intro comparisons
  have hcompares : ComparesOnly comparisons := by decide +kernel
  have hnone : ¬"=>".toList <:+: comparisons := by decide +kernel
  have harrow : ¬HasArrowAfterTarget comparisons := by
    rintro ⟨before, after, h, -⟩
    exact hnone ⟨before, after, h.symm⟩
  obtain ⟨hiff, hcritical⟩ := comparesOnly_mutates_iff hcompares
  refine ⟨hcompares, harrow, by rw [← Bool.not_eq_true, hiff]; exact harrow, fun mode => ?_⟩
  intro call findings
  have hwindow : windowAfter #[call, ⟨2, comparisons⟩] mode call.index = [⟨2, comparisons⟩] := by
    cases mode <;> decide +kernel
  have hother : ⟨2, comparisons⟩ ∈ windowAfter #[call, ⟨2, comparisons⟩] mode call.index := by
    rw [hwindow]
    exact List.mem_singleton_self _
  refine ⟨by cases mode <;> decide +kernel, fun f hf => ?_⟩
  rw [Ne, hcritical _ mode call _ hother rfl f hf, hwindow]
  rintro (h | ⟨rest, hrest, hne, -⟩)
  · exact harrow h
  · exact hne (List.mem_singleton.1 hrest)

/-- The declaration of a mapping has an arrow and no sign of assignment, and makes the call before
it critical. -/
theorem critical_by_arrow :
    let declaration := "mapping(address => uint) a;".toList
    let source : Source := .ofText "f.send(1);\nmapping(address => uint) a;".toList
    ComparesOnly declaration ∧ mutatesState declaration = true ∧
      ∀ mode, (inspect source mode).map Finding.severity = [.critical] := by
  intro declaration source
  refine ⟨by decide +kernel, by decide +kernel, fun mode => ?_⟩
  cases mode <;> decide +kernel

end ContractAudit.Detector.Reentrancy
