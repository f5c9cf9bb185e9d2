import ContractAudit.Analysis
import ContractAudit.Proofs.Except
import ContractAudit.Proofs.Score.Range

/-!
# An analysis always gives a report

The built-in detectors are total, and what they find always has scores, so an analysis by them
never fails: there is a report for every source and either mode.

Main results:

* `runDetectors_builtin`: the findings are those of the five detectors, one after the other.
* `exists_analyze`: the report holds these findings, with the scores of their penalties.
* `analyze_total`: no step refuses, and every score of the report lies between one and ten.
-/

namespace ContractAudit

open Detector

/-- What each built-in detector finds in a source, in the order of the registry. -/
def builtinFound (source : List Char) (mode : ScanMode) : List (List Finding) := [
  Reentrancy.inspect (.ofText source) mode,
  Overflow.inspect (.ofText source) mode,
  GasLoop.inspect (.ofText source) mode,
  AccessControl.inspect (.ofText source) mode,
  NatSpec.inspect (.ofText source) mode]

theorem inspect_builtin {detector : Detector} (h : detector ∈ builtin) (source : Source)
    (mode : ScanMode) : ∃ found, detector.inspect source mode = .ok found := by
  simp only [builtin, List.mem_cons, List.not_mem_nil, or_false] at h
  rcases h with rfl | rfl | rfl | rfl | rfl <;> exact ⟨_, rfl⟩

theorem runDetectors_builtin (source : List Char) (mode : ScanMode) :
    runDetectors builtin (.ofText source) mode = .ok (builtinFound source mode).flatten := rfl

/-- The report of a source holds what the detectors found, with the scores of that. -/
theorem exists_analyze (source : List Char) (mode : ScanMode) :
    ∃ report, analyze source mode = .ok report ∧
      report.findings = (builtinFound source mode).flatten ∧
      CategoryScores.ofFindings report.findings = .ok report.scores := by
  obtain ⟨scores, hscores, -⟩ :=
    CategoryScores.exists_ofFindings (builtinFound source mode).flatten
  refine ⟨Report.make scores (builtinFound source mode).flatten (generalChecklist.map .text), ?_,
    rfl, hscores⟩
  simp only [analyze, analyzeWith, runDetectors_builtin, bind, Except.bind, hscores,
    Except.mapError]
  rfl

/-- Whatever detectors ran, a report is made with the checklist for its suggestions. -/
theorem exists_eq_make_of_analyzeWith {detectors : List Detector} {source : List Char}
    {mode : ScanMode} {report : Report} (h : analyzeWith detectors source mode = .ok report) :
    ∃ scores findings, report = Report.make scores findings (generalChecklist.map .text) := by
  obtain ⟨findings, -, h⟩ := bind_eq_ok_iff.1 h
  obtain ⟨scores, -, h⟩ := bind_eq_ok_iff.1 h
  exact ⟨scores, findings, (Except.ok.inj h).symm⟩

/-- **Totality.** Every detector answers with a list, every penalty leaves a number from one to
ten, which becomes the score of its category, and the overall score lies in the same range. -/
theorem analyze_total (source : List Char) (mode : ScanMode) :
    (∀ detector ∈ builtin, ∃ found, detector.inspect (.ofText source) mode = .ok found) ∧
    ∃ report, analyze source mode = .ok report ∧
      (∀ c, ∃ q, categoryScore ((Penalties.ofFindings report.findings).get c) = .ok (.finite q) ∧
        1 ≤ q ∧ q ≤ 10 ∧ (report.scores.get c).value = .finite q) ∧
      ∃ q, report.overall = .finite q ∧ 1 ≤ q ∧ q ≤ 10 := by
  refine ⟨fun detector h => inspect_builtin h _ mode, ?_⟩
  obtain ⟨report, hreport, -, hscores⟩ := exists_analyze source mode
  refine ⟨report, hreport, ?_, report.scores.overall_between⟩
  intro c
  obtain ⟨scores, hof, hscore⟩ := CategoryScores.exists_ofFindings report.findings
  obtain rfl : scores = report.scores := Except.ok.inj (hof.symm.trans hscores)
  obtain ⟨q, hq, hlow, hhigh⟩ := (report.scores.get c).exists_value
  exact ⟨q, (hscore c).trans (congrArg Except.ok hq), hlow, hhigh, hq⟩

end ContractAudit
