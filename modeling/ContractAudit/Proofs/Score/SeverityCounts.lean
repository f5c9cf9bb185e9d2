import ContractAudit.Proofs.Analysis
import ContractAudit.Proofs.Score.WholePenalties

/-!
# Scores follow from the counts by severity

A report counts its findings by severity. Four of the five scores of an analysis can be computed
from these counts alone, since each built-in detector has severities of its own and all of its
findings carry the same categories: what is critical, high or medium is charged against security,
what is low against gas efficiency and performance, and what is informational against documentation
(`categories_of_mem_builtinFound`). The score of code quality cannot: its penalty is a rounded sum,
which depends on the order of the findings.

* **Counting.** A sum over findings that depends on severities is a weighted sum of the counts
  (`sum_map_severity`); with ones for weights it is the number of findings.
* **Scores.** Whole penalties leave scores without rounding (`categoryScore_natCast`).

Main result: `scores_of_severityCounts`.
-/

namespace ContractAudit

/-- The categories against which the built-in detectors charge a severity. -/
def Severity.categories : Severity → List Category
  | .critical | .high | .medium => [.security]
  | .low => [.gasEfficiency, .performance]
  | .info => [.documentation]

/-! ## What the detectors charge -/

namespace Detector

variable {source : Source} {mode : ScanMode} {f : Finding}

theorem Profile.categories_ite {profile : Profile} {severity : Severity} {found : Bool}
    {id : String} {line : Line} (hcategories : profile.categories = severity.categories)
    (h : f ∈ if found then [profile.finding id severity line] else []) :
    f.categories = f.severity.categories := by
  cases found with
  | false => cases h
  | true =>
    obtain rfl := List.mem_singleton.1 h
    exact hcategories

theorem Reentrancy.categories_of_mem_inspect (h : f ∈ inspect source mode) :
    f.categories = f.severity.categories := by
  obtain ⟨line, -, h⟩ := List.mem_flatMap.1 h
  rw [findingsAt] at h
  split at h
  · cases h
  · obtain ⟨n, -, rfl⟩ := List.mem_map.1 h
    -- the severity of a call is one of two, which are charged alike
    show [Category.security] = (severityAt source.lines mode line.index).categories
    rw [severityAt]
    split <;> rfl

theorem Overflow.categories_of_mem_inspect (h : f ∈ inspect source mode) :
    f.categories = f.severity.categories := by
  rw [inspect] at h
  split at h
  · cases h
  · obtain ⟨line, -, h⟩ := List.mem_flatMap.1 h
    exact profile.categories_ite rfl h

theorem GasLoop.categories_of_mem_inspect (h : f ∈ inspect source mode) :
    f.categories = f.severity.categories := by
  obtain ⟨line, -, h⟩ := List.mem_flatMap.1 h
  rw [findingsAt] at h
  split at h
  · split at h
    · obtain rfl := List.mem_singleton.1 h
      rfl
    · cases h
  · cases h

theorem AccessControl.categories_of_mem_inspect (h : f ∈ inspect source mode) :
    f.categories = f.severity.categories := by
  obtain ⟨line, -, h⟩ := List.mem_flatMap.1 h
  exact profile.categories_ite rfl h

theorem NatSpec.categories_of_mem_inspect (h : f ∈ inspect source mode) :
    f.categories = f.severity.categories := by
  obtain ⟨line, -, h⟩ := List.mem_flatMap.1 h
  exact profile.categories_ite rfl h

end Detector

open Detector in
/-- Whatever is found, its severity says against which categories it is charged. -/
theorem categories_of_mem_builtinFound {source : List Char} {mode : ScanMode} {f : Finding}
    (h : f ∈ (builtinFound source mode).flatten) : f.categories = f.severity.categories := by
  obtain ⟨found, hfound, hf⟩ := List.mem_flatten.1 h
  simp only [builtinFound, List.mem_cons, List.not_mem_nil, or_false] at hfound
  rcases hfound with rfl | rfl | rfl | rfl | rfl
  · exact Reentrancy.categories_of_mem_inspect hf
  · exact Overflow.categories_of_mem_inspect hf
  · exact GasLoop.categories_of_mem_inspect hf
  · exact AccessControl.categories_of_mem_inspect hf
  · exact NatSpec.categories_of_mem_inspect hf

/-! ## Counting -/

/-- What depends on severities is summed by the counts. -/
theorem sum_map_severity (g : Severity → Nat) (findings : List Finding) :
    (findings.map fun f => g f.severity).sum =
      (Severity.all.map fun s => g s * findings.countP (·.severity == s)).sum := by
  induction findings with
  | nil => simp [Severity.all]
  | cons f rest ih =>
    rw [List.map_cons, List.sum_cons, ih]
    simp only [Severity.all, List.map_cons, List.map_nil, List.sum_cons, List.sum_nil,
      List.countP_cons]
    -- one of the five counts goes up, that of the severity at hand
    cases f.severity <;> simp [Nat.mul_add] <;> omega

theorem length_eq_sum_count (report : Report) :
    report.count .critical + report.count .high + report.count .medium + report.count .low +
      report.count .info = report.findings.length := by
  have hlength : (report.findings.map fun _ => 1).sum = report.findings.length := by simp
  have hsum := sum_map_severity (fun _ => 1) report.findings
  simp only [Severity.all, List.map_cons, List.map_nil, List.sum_cons, List.sum_nil,
    Nat.one_mul] at hsum
  simp only [Report.count]
  omega

/-- The penalty of a category but code quality, by the counts of a report. -/
def Report.penaltyOfCounts (report : Report) : Category → Nat
  | .security =>
    10 * report.count .critical + 7 * report.count .high + 5 * report.count .medium
  | .gasEfficiency | .performance => 3 * report.count .low
  | .documentation => report.count .info
  | .codeQuality => 0

section Scores

variable {source : List Char} {mode : ScanMode} {report : Report}
  (hreport : analyze source mode = .ok report)
include hreport

theorem sum_charge_eq (c : Category) :
    (report.findings.map (Finding.charge · c)).sum = report.penaltyOfCounts c := by
  obtain ⟨report', hreport', hfindings, -⟩ := exists_analyze source mode
  obtain rfl : report' = report := Except.ok.inj (hreport'.symm.trans hreport)
  have hcharge : ∀ f ∈ report'.findings,
      f.charge c = if c ∈ f.severity.categories then f.severity.weight else 0 := by
    intro f hf
    rw [hfindings] at hf
    rw [Finding.charge, categories_of_mem_builtinFound hf]
  rw [List.map_congr_left hcharge,
    sum_map_severity (fun s => if c ∈ s.categories then s.weight else 0)]
  -- of the five counts only those of the severities that the category takes are left
  cases c <;> simp [Severity.all, Severity.categories, Severity.weight, Report.penaltyOfCounts,
    Report.count, Nat.add_assoc]

theorem score_eq_exactScore {c : Category} (hc : c ≠ .codeQuality) :
    (report.scores.get c).value = .finite (exactScore (report.penaltyOfCounts c)) := by
  obtain ⟨report', hreport', -, hof⟩ := exists_analyze source mode
  obtain rfl : report' = report := Except.ok.inj (hreport'.symm.trans hreport)
  obtain ⟨scores, hscores, hscore⟩ := CategoryScores.exists_ofFindings report'.findings
  obtain rfl : scores = report'.scores := Except.ok.inj (hscores.symm.trans hof)
  have hvalue := hscore c
  rw [Penalties.get_ofFindings hc, categoryScore_natCast, sum_charge_eq hreport] at hvalue
  exact (Except.ok.inj hvalue).symm

end Scores

/-- **Scores by counts.** In the report of a source the counts by severity add up to the number of
findings, and they give the scores of security, gas efficiency, performance and documentation
exactly. -/
theorem scores_of_severityCounts (source : List Char) (mode : ScanMode) :
    ∃ report, analyze source mode = .ok report ∧
      ∃ critical high medium low info : Nat,
        report.severityCounts = .record [("Critical", .int critical), ("High", .int high),
          ("Medium", .int medium), ("Low", .int low), ("Info", .int info)] ∧
        report.scores.security.value = .finite
          (max 1 (10 - min 40 (10 * critical + 7 * high + 5 * medium) / 4)) ∧
        report.scores.gasEfficiency.value = .finite (max 1 (10 - min 40 (3 * low) / 4)) ∧
        report.scores.performance.value = .finite (max 1 (10 - min 40 (3 * low) / 4)) ∧
        report.scores.documentation.value = .finite (max 1 (10 - min 40 info / 4)) ∧
        critical + high + medium + low + info = report.findings.length := by
  obtain ⟨report, hreport, -, -⟩ := exists_analyze source mode
  refine ⟨report, hreport, report.count .critical, report.count .high, report.count .medium,
    report.count .low, report.count .info, rfl, ?_, ?_, ?_, ?_, length_eq_sum_count report⟩
  · have hsecurity := score_eq_exactScore hreport (c := .security) (by decide)
    simpa [exactScore, Report.penaltyOfCounts, CategoryScores.get] using hsecurity
  · have hgas := score_eq_exactScore hreport (c := .gasEfficiency) (by decide)
    simpa [exactScore, Report.penaltyOfCounts, CategoryScores.get] using hgas
  · have hperformance := score_eq_exactScore hreport (c := .performance) (by decide)
    simpa [exactScore, Report.penaltyOfCounts, CategoryScores.get] using hperformance
  · have hdocumentation := score_eq_exactScore hreport (c := .documentation) (by decide)
    simpa [exactScore, Report.penaltyOfCounts, CategoryScores.get] using hdocumentation

end ContractAudit
