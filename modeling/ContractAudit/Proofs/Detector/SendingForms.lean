import ContractAudit.Proofs.Detector.Mutations
import ContractAudit.Proofs.Report.AtLine

/-!
# One finding for each form of sending

A line is reported once for each form of sending value that occurs in it, however often it occurs.
The findings of a line differ in their ids alone, which number them from the second one on. All are
as grave as the first: in legacy mode critical exactly if one of the five lines below steps a
variable or assigns to one (`Steps`, `Assigns`).

Main results: `countForms_eq_length` and `reports_each_form`, the exact answer of the detector at
each line.
-/

namespace ContractAudit.Detector.Reentrancy

open Text

/-! ## Forms -/

/-- A call with a value in braces, up to the first closing one. -/
structure ValueCall where
  value : List Char
  value_ne_nil : value ≠ []
  value_open : '\x7d' ∉ value

/-- The call as it is written. -/
def ValueCall.text (call : ValueCall) : List Char :=
  ".call\x7bvalue:".toList ++ call.value ++ ['\x7d']

/-- The forms of sending value. -/
inductive SendingForm
  | callWithValue
  | callValue
  | send
  | transfer

/-- All forms, in the order in which they are tested. -/
def SendingForm.all : List SendingForm := [.callWithValue, .callValue, .send, .transfer]

/-- The form occurs in the text. -/
def SendingForm.OccursIn (text : List Char) : SendingForm → Prop
  | .callWithValue => ∃ call : ValueCall, call.text <:+: text
  | .callValue => ".call.value(".toList <:+: text
  | .send => ".send(".toList <:+: text
  | .transfer => ".transfer(".toList <:+: text

/-- The test for the form on the rest of a text. -/
def SendingForm.test : SendingForm → List Char → Bool
  | .callWithValue => startsCallWithValue
  | .callValue => startsWith ".call.value("
  | .send => startsWith ".send("
  | .transfer => startsWith ".transfer("

theorem startsCallWithValue_iff {s : List Char} :
    startsCallWithValue s = true ↔ ∃ call : ValueCall, call.text <+: s := by
  constructor
  · intro h
    unfold startsCallWithValue at h
    split at h
    · rename_i rest hcall
      rw [Bool.and_eq_true, bne_iff_ne, List.contains_iff_mem] at h
      obtain ⟨hhead, hclosing⟩ := h
      obtain ⟨value, after, rfl, value_open⟩ := List.eq_append_cons_of_mem hclosing
      have value_ne_nil : value ≠ [] := by
        rintro rfl
        exact hhead rfl
      refine ⟨{ value, value_ne_nil, value_open }, after, ?_⟩
      rw [after?_eq_some_iff.1 hcall]
      unfold ValueCall.text
      simp only [List.append_assoc, List.singleton_append]
    · cases h
  · rintro ⟨call, after, rfl⟩
    unfold ValueCall.text
    simp only [List.append_assoc, List.singleton_append]
    unfold startsCallWithValue
    rw [after?_eq_some_iff.2 rfl]
    obtain ⟨c, value, hvalue⟩ := List.exists_cons_of_ne_nil call.value_ne_nil
    have hc : c ≠ '\x7d' := fun h => call.value_open (by rw [hvalue, h]; exact List.mem_cons_self)
    simp [hvalue, hc]

theorem SendingForm.occursIn_iff {text : List Char} (form : SendingForm) :
    occurs form.test text = true ↔ form.OccursIn text := by
  cases form with
  | callWithValue => exact occurs_iff_isInfix fun _ => startsCallWithValue_iff
  | callValue => exact mentions_iff
  | send => exact mentions_iff
  | transfer => exact mentions_iff

instance (text : List Char) (form : SendingForm) : Decidable (form.OccursIn text) :=
  decidable_of_iff _ form.occursIn_iff

/-- The forms that occur in a text. -/
def formsIn (text : List Char) : List SendingForm :=
  SendingForm.all.filter fun form => form.OccursIn text

theorem countForms_eq_length (text : List Char) : countForms text = (formsIn text).length := by
  have hforms : forms = SendingForm.all.map SendingForm.test := rfl
  rw [countForms, hforms, List.countP_map, formsIn, ← List.countP_eq_length_filter]
  refine List.countP_congr fun form _ => ?_
  rw [decide_eq_true_eq, ← form.occursIn_iff]
  rfl

/-! ## Windows -/

theorem mem_linesAfter_iff {lines : Array Line} {index count : Nat} {line : Line} :
    line ∈ linesAfter lines index count ↔
      ∃ j, index < j ∧ j ≤ index + count ∧ lines.toList[j]? = some line := by
  rw [linesAfter_natCast]
  constructor
  · intro hline
    obtain ⟨k, hk⟩ := List.getElem?_of_mem hline
    rw [List.getElem?_take] at hk
    split at hk
    · rw [List.getElem?_drop] at hk
      exact ⟨index + 1 + k, by omega, by omega, hk⟩
    · cases hk
  · rintro ⟨j, hlow, hhigh, hj⟩
    refine List.mem_of_getElem? (i := j - (index + 1)) ?_
    rw [List.getElem?_take, if_pos (by omega), List.getElem?_drop, Nat.add_sub_cancel' hlow]
    exact hj

/-- One of the five lines below a call changes state. -/
def ChangesBelow (lines : List Line) (i : Nat) : Prop :=
  ∃ (j : Nat) (line : Line), i < j ∧ j ≤ i + 5 ∧ lines[j]? = some line ∧
    (Steps line.text ∨ Assigns line.text)

theorem severityAt_legacy_eq_critical_iff {lines : Array Line} {i : Nat} :
    severityAt lines .legacy i = .critical ↔ ChangesBelow lines.toList i := by
  rw [severityAt_eq_critical_iff]
  constructor
  · rintro ⟨line, hline, hmutates⟩
    obtain ⟨j, hlow, hhigh, hj⟩ := mem_linesAfter_iff.1 hline
    exact ⟨j, line, hlow, hhigh, hj, mutatesState_iff.1 hmutates⟩
  · rintro ⟨j, line, hlow, hhigh, hj, hchanges⟩
    exact ⟨line, mem_linesAfter_iff.2 ⟨j, hlow, hhigh, hj⟩, mutatesState_iff.2 hchanges⟩

theorem severityAt_eq_high_iff {lines : Array Line} {mode : ScanMode} {i : Nat} :
    severityAt lines mode i = .high ↔ ¬severityAt lines mode i = .critical := by
  rw [severityAt]
  split <;> decide

/-! ## Findings of a line -/

theorem findingId_eq (index n : Nat) : findingId index n =
    if n = 0 then "reentrancy-" ++ toString index
    else "reentrancy-" ++ toString index ++ "-" ++ toString (n + 1) := by
  have hprefix : profile.id index = "reentrancy-" ++ toString index := rfl
  rw [findingId, hprefix]
  split
  · rw [String.append_empty]
  · rw [String.append_assoc, String.append_assoc, String.append_assoc]

theorem findingsAt_eq_map (lines : Array Line) (mode : ScanMode) (line : Line) :
    findingsAt lines mode line = (List.range (formsIn line.text).length).map fun n =>
      profile.finding (findingId line.index n) (severityAt lines mode line.index) line := by
  rw [findingsAt, countForms_eq_length]
  cases (formsIn line.text).length <;> rfl

/-- **The answer of legacy mode.** A line is reported once for each form of sending that occurs in
it, under the ids that number these findings, and every finding is critical or high by the five
lines below. -/
theorem reports_each_form (source : List Char) (i : Fin (splitLines source).length) :
    let found := standingAt (i + 1) (inspect (.ofText source) .legacy)
    found.length = (formsIn ((splitLines source).get i).text).length ∧
    (found.map Finding.id = (List.range found.length).map fun n => .text <|
      if n = 0 then "reentrancy-" ++ toString i.val
      else "reentrancy-" ++ toString i.val ++ "-" ++ toString (n + 1)) ∧
    ∀ f ∈ found, (f.severity = .critical ↔ ChangesBelow (splitLines source) i) ∧
      (f.severity = .high ↔ ¬ChangesBelow (splitLines source) i) := by
  intro found
  have hfound : found =
      findingsAt (Source.ofText source).lines .legacy ((splitLines source).get i) :=
    standingAt_flatMap (fun line => (reportsAt _ .legacy line).standAt) i
  rw [findingsAt_eq_map, index_get_splitLines] at hfound
  have hcritical : severityAt (Source.ofText source).lines .legacy i = .critical ↔
      ChangesBelow (splitLines source) i := severityAt_legacy_eq_critical_iff
  have hlength : found.length = (formsIn ((splitLines source).get i).text).length := by
    rw [hfound, List.length_map, List.length_range]
  refine ⟨hlength, ?_, fun f hf => ?_⟩
  · rw [hlength, hfound, List.map_map]
    refine List.map_congr_left fun n _ => ?_
    show Json.Value.text (findingId i n) = _
    rw [findingId_eq]
  · rw [hfound] at hf
    obtain ⟨n, -, rfl⟩ := List.mem_map.1 hf
    exact ⟨hcritical, severityAt_eq_high_iff.trans (not_congr hcritical)⟩

end ContractAudit.Detector.Reentrancy
