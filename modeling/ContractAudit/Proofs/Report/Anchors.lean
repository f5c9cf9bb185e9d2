import ContractAudit.Proofs.Report.Order
import ContractAudit.Proofs.Report.Shift

/-!
# Findings are anchored in the source

A finding names a line, quotes it, and carries in its id the index of the line that keys it. In a
report these agree with the source: the line exists, the snippet is its text without the white space
around it, and the index is that of the line.

Loops are the exception, and the reason why line and index are told apart: the index is that of a
line with a loop, and the line is the first one from there on that writes to an indexed variable. It
lies in the window of the loop, so no further down than the window may reach, whether it is a fixed
number of lines or the lines of a block.

Main result: `findings_anchored`.
-/

namespace ContractAudit

open Detector

/-! ## Lines and loops -/

/-- The finding stands at a line of the source, which is `place` counted from zero, and quotes
it. -/
structure Finding.StandsAt (f : Finding) (source : List Char) (place : Nat) (line : Line) :
    Prop where
  getElem?_eq : (splitLines source)[place]? = some line
  line_eq : f.line = place + 1
  one_le : 1 ≤ f.line
  le_length : f.line ≤ (splitLines source).length
  snippet_eq : f.snippet = .text (String.ofList (Text.trim line.text))

namespace Detector.GasLoop

/-- The most lines of a loop, with its own. -/
def extent : ScanMode → Nat
  | .legacy => 10
  | .scoped => 200

/-- There is a loop at the line `loop`, and `place` is the first line from there on that writes to
an indexed variable, no further down than the lines of a loop reach. -/
structure Reaches (source : List Char) (mode : ScanMode) (loop place : Nat) : Prop where
  isLoop : ∃ line, (splitLines source)[loop]? = some line ∧ isLoop line.text = true
  isFirstWrite : IsFirstWrite (splitLines source) loop place
  lt : place < loop + extent mode

/-- The lines of a loop are some of the most that it may have. -/
theorem loopLines_isPrefix_take (lines : Array Line) (mode : ScanMode) (index : Nat) :
    loopLines lines mode index <+: (lines.toList.drop index).take (extent mode) := by
  cases mode
  · rw [loopLines, linesFrom_natCast]
    exact List.prefix_refl _
  · rw [loopLines, blockBody, linesFrom_natCast]
    exact throughBody_isPrefix 0 false true _

theorem index_lt_of_mem_loopLines {source : List Char} {mode : ScanMode} {index : Nat} {hit : Line}
    (h : hit ∈ loopLines (Source.ofText source).lines mode index) :
    hit.index < index + extent mode := by
  have htake : hit ∈ ((splitLines source).drop index).take (extent mode) :=
    (loopLines_isPrefix_take _ mode index).subset h
  obtain ⟨n, hn⟩ := List.getElem?_of_mem htake
  rw [List.getElem?_take] at hn
  split at hn
  · rw [List.getElem?_drop] at hn
    rw [index_of_getElem?_splitLines hn]
    omega
  · cases hn

end Detector.GasLoop

/-! ## Anchored findings -/

/-- The finding is one of the detector `name`: it carries this name, has an id with an index, and
stands at the line with this index, or for a loop at the line that the loop reaches. -/
def Finding.Anchored (f : Finding) (source : List Char) (mode : ScanMode) (name : String) : Prop :=
  f.detector = .text name ∧
  ∃ index ordinal place line, f.IsKeyed ⟨name, index, ordinal⟩ ∧ f.StandsAt source place line ∧
    if name = GasLoop.profile.name then GasLoop.Reaches source mode index place else index = place

/-- What is found at a line of the source quotes it, whatever line keys the finding. -/
theorem Detector.Profile.standsAt {source : List Char} {place : Nat} {line : Line}
    (h : (splitLines source)[place]? = some line) (profile : Profile) (id : String)
    (severity : Severity) : (profile.finding id severity line).StandsAt source place line := by
  have hnumber := number_of_getElem?_splitLines h
  have hplace : place < (splitLines source).length := (List.getElem?_eq_some_iff.1 h).1
  refine ⟨h, ?_, ?_, ?_, rfl⟩ <;> simp only [Profile.finding] <;> omega

/-- Findings that are reported at the scanned lines are anchored there. -/
theorem anchored_flatMap {profile : Profile} (hname : profile.name ∈ FindingKey.builtinNames)
    (hloop : profile.name ≠ GasLoop.profile.name) {source : List Char} {mode : ScanMode}
    {findingsAt : Line → List Finding}
    (hreports : ∀ line, ReportsAt profile line (findingsAt line)) :
    ∀ f ∈ (splitLines source).flatMap findingsAt, f.Anchored source mode profile.name := by
  intro f hf
  obtain ⟨line, hline, hf⟩ := List.mem_flatMap.1 hf
  obtain ⟨ordinal, severity, rfl⟩ := hreports line f hf
  have hstands := Profile.standsAt (getElem?_splitLines hline).1 profile
    (FindingKey.text ⟨profile.name, line.index, ordinal⟩) severity
  refine ⟨rfl, line.index, ordinal, line.index, line, ⟨rfl, hname⟩, hstands, ?_⟩
  rw [if_neg hloop]

theorem Detector.GasLoop.anchored (source : List Char) (mode : ScanMode) :
    ∀ f ∈ inspect (.ofText source) mode, f.Anchored source mode profile.name := by
  intro f hf
  obtain ⟨line, hline, hf⟩ := List.mem_flatMap.1 hf
  obtain ⟨hloop, place, hit, hfirst, hplace, hmem, rfl⟩ := exists_of_mem_findingsAt hf
  have hname : profile.name ∈ FindingKey.builtinNames := by decide
  have hstands := Profile.standsAt hplace profile (profile.id line.index) .low
  refine ⟨rfl, line.index, 0, place, hit, ⟨?_, hname⟩, hstands, ?_⟩
  · rw [← profile.id_eq_text]
    rfl
  · -- the reported line lies in the window that was searched
    have hwithin := index_lt_of_mem_loopLines hmem
    rw [index_of_getElem?_splitLines hplace] at hwithin
    rw [if_pos rfl]
    exact ⟨⟨line, (getElem?_splitLines hline).1, hloop⟩, hfirst, hwithin⟩

/-- A detector answers with findings that are anchored in the source. -/
def AnswersAnchored (source : List Char) (mode : ScanMode) (detector : Detector)
    (found : List Finding) : Prop :=
  detector.inspect (.ofText source) mode = .ok found ∧
    ∀ f ∈ found, f.Anchored source mode detector.name

theorem forall₂_answersAnchored (source : List Char) (mode : ScanMode) :
    List.Forall₂ (AnswersAnchored source mode) builtin (builtinFound source mode) := by
  have hoverflow : ∀ f ∈ Overflow.inspect (.ofText source) mode,
      f.Anchored source mode Overflow.profile.name := by
    rw [Overflow.inspect]
    split
    · exact fun _ hf => absurd hf List.not_mem_nil
    · exact anchored_flatMap (by decide) (by decide) fun line => reportsAt_ite _ line _ _
  exact
    .cons ⟨rfl, anchored_flatMap (by decide) (by decide) (Reentrancy.reportsAt _ mode)⟩ <|
    .cons ⟨rfl, hoverflow⟩ <|
    .cons ⟨rfl, GasLoop.anchored source mode⟩ <|
    .cons ⟨rfl, anchored_flatMap (by decide) (by decide) fun line => reportsAt_ite _ line _ _⟩ <|
    .cons ⟨rfl, anchored_flatMap (by decide) (by decide) fun line => reportsAt_ite _ line _ _⟩ .nil

/-- **Anchors.** The findings of a report are those of the registered detectors in order, and every
one of them is anchored in the source under the name of its detector. -/
theorem findings_anchored (source : List Char) (mode : ScanMode) :
    ∃ report, analyze source mode = .ok report ∧
      ∃ founds, List.Forall₂ (AnswersAnchored source mode) builtin founds ∧
        report.findings = founds.flatten := by
  obtain ⟨report, hreport, hfindings, -⟩ := exists_analyze source mode
  exact ⟨report, hreport, _, forall₂_answersAnchored source mode, hfindings⟩

end ContractAudit
