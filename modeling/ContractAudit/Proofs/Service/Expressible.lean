import ContractAudit.Proofs.Json.Printer
import ContractAudit.Proofs.Report.Order
import ContractAudit.Service.Submission

/-!
# The data of an audit can be expressed

The report that the built-in detectors give, with the name of the source, is data that JSON text can
express:

* **Findings.** What a detector fills in are texts, a line and names of categories.
* **Scores.** Each is a finite number of the format. The range of a score does not say so, since it
  also holds numbers between two of the format; a score that was computed is the result of a
  rounding.

Main result: `Service.Audit.isExpressible`.
-/

namespace ContractAudit

open Json

/-! ## Records -/

theorem Json.Value.isExpressible_record {members : List (String × Value)}
    (hdistinct : (members.map Prod.fst).Nodup)
    (h : ∀ member ∈ members, member.2.IsExpressible) : (Value.record members).IsExpressible := by
  refine .object ?_ ?_ ?_
  · intro member hmember
    obtain ⟨⟨key, x⟩, -, rfl⟩ := List.mem_map.1 hmember
    exact ⟨key, rfl⟩
  · have hkeys : (members.map fun member => (Str.text member.1, member.2)).map Prod.fst =
        (members.map Prod.fst).map Str.text := by
      rw [List.map_map, List.map_map]
      rfl
    exact hkeys ▸ hdistinct.map fun _ _ => Str.text.inj
  · intro member hmember
    obtain ⟨⟨key, x⟩, hx, rfl⟩ := List.mem_map.1 hmember
    exact h _ hx

/-- A record with a member for each of some items, called after it. -/
theorem Json.Value.isExpressible_table {α : Type} {items : List α} {name : α → String}
    {value : α → Value} (hdistinct : (items.map name).Nodup)
    (h : ∀ item, (value item).IsExpressible) :
    (Value.record (items.map fun item => (name item, value item))).IsExpressible := by
  refine isExpressible_record ?_ fun member hmember => ?_
  · rw [List.map_map]
    exact hdistinct
  · obtain ⟨item, -, rfl⟩ := List.mem_map.1 hmember
    exact h item

theorem Json.Value.isExpressible_texts {α : Type} (text : α → String) (items : List α) :
    (Value.list (items.map fun item => .text (text item))).IsExpressible := by
  refine .list fun x hx => ?_
  obtain ⟨item, -, rfl⟩ := List.mem_map.1 hx
  exact .text (text item)

/-! ## Findings -/

/-- The finding is one that a detector with some profile makes at a line. -/
def Finding.IsDetected (f : Finding) : Prop :=
  ∃ (profile : Detector.Profile) (id : String) (severity : Severity) (line : Line),
    f = profile.finding id severity line

theorem Finding.IsDetected.isExpressible {f : Finding} (h : f.IsDetected) :
    f.toValue.IsExpressible := by
  obtain ⟨profile, id, severity, line, rfl⟩ := h
  refine Value.isExpressible_record (by simp) fun member hmember => ?_
  simp only [Detector.Profile.finding, List.mem_cons, List.not_mem_nil, or_false] at hmember
  rcases hmember with rfl | rfl | rfl | rfl | rfl | rfl | rfl | rfl | rfl
  any_goals exact .text _
  · exact .int _
  · exact Value.isExpressible_texts (fun suggestion => suggestion) profile.suggestions
  · exact Value.isExpressible_texts Category.name profile.categories

theorem ReportsAt.isDetected {profile : Detector.Profile} {line : Line} {found : List Finding}
    (h : ReportsAt profile line found) : ∀ f ∈ found, f.IsDetected := by
  intro f hf
  obtain ⟨ordinal, severity, rfl⟩ := h f hf
  exact ⟨profile, _, severity, line, rfl⟩

theorem isDetected_flatMap {lines : List Line} {findingsAt : Line → List Finding}
    (h : ∀ line, ∀ f ∈ findingsAt line, f.IsDetected) :
    ∀ f ∈ lines.flatMap findingsAt, f.IsDetected := by
  intro f hf
  obtain ⟨line, -, hf⟩ := List.mem_flatMap.1 hf
  exact h line f hf

/-- Every finding of a built-in detector is one of a profile. -/
theorem isDetected_of_mem_builtinFound {source : List Char} {mode : ScanMode}
    {found : List Finding} (h : found ∈ builtinFound source mode) :
    ∀ f ∈ found, f.IsDetected := by
  simp only [builtinFound, List.mem_cons, List.not_mem_nil, or_false] at h
  rcases h with rfl | rfl | rfl | rfl | rfl
  · exact isDetected_flatMap fun line => (Detector.Reentrancy.reportsAt _ mode line).isDetected
  · rw [Detector.Overflow.inspect]
    split
    · exact fun f hf => absurd hf List.not_mem_nil
    · exact isDetected_flatMap fun line => (reportsAt_ite _ line _ _).isDetected
  · refine isDetected_flatMap fun line f hf => ?_
    obtain ⟨-, k, hit, -, -, -, rfl⟩ := Detector.GasLoop.exists_of_mem_findingsAt hf
    exact ⟨_, _, _, hit, rfl⟩
  · exact isDetected_flatMap fun line => (reportsAt_ite _ line _ _).isDetected
  · exact isDetected_flatMap fun line => (reportsAt_ite _ line _ _).isDetected

/-! ## Scores -/

theorem isFinite_one : (Binary64.finite 1).IsFinite :=
  Binary64.isFinite_of_round_eq (by decide) (show Binary64.round 1 = .finite 1 by decide +kernel)

/-- The score that a penalty leaves is a number of the format. -/
theorem isFinite_of_categoryScore {n : Number} (h : n.IsPenalty) {x : Binary64}
    (hx : categoryScore n = .ok x) : x.IsFinite := by
  obtain ⟨q, left, -, hleft, hq, -, hscore⟩ := exists_categoryScore h
  obtain rfl := Except.ok.inj (hx.symm.trans hscore)
  rcases max_choice 1 left with hmax | hmax
  · rw [hmax]
    exact isFinite_one
  · rw [hmax]
    exact Binary64.isFinite_of_round_eq (by linarith) hleft

namespace CategoryScores

theorem isFinite_of_ofFindings {findings : List Finding} {scores : CategoryScores}
    (h : ofFindings findings = .ok scores) (c : Category) : (scores.get c).value.IsFinite := by
  obtain ⟨scores', h', hscore⟩ := exists_ofFindings findings
  obtain rfl := Except.ok.inj (h.symm.trans h')
  exact isFinite_of_categoryScore
    (Penalties.get_isPenalty (Penalties.codeQuality_ofFindings findings) c) (hscore c)

theorem isFinite_overall (scores : CategoryScores) : scores.overall.IsFinite := by
  obtain ⟨p, hp, hp0, hp10⟩ := scores.exists_weighted
  obtain ⟨q, hq, -, -⟩ := scores.overall_between
  have htenths : (0 : Rat) ≤ tenths scores.weighted := by
    rw [hp]
    exact_mod_cast (tenths_mono hp0 (le_refl p) hp10).1
  rw [hq]
  exact Binary64.isFinite_of_round_eq (div_nonneg htenths (Nat.cast_nonneg 10)) hq

theorem isExpressible {scores : CategoryScores}
    (h : ∀ c, (scores.get c).value.IsFinite) : scores.toValue.IsExpressible := by
  have hnames : (Category.all.map Category.name).Nodup := by decide
  exact Value.isExpressible_table hnames fun c => .real (h c)

end CategoryScores

/-! ## Reports and audits -/

theorem Report.isExpressible_severityCounts (r : Report) : r.severityCounts.IsExpressible := by
  have hnames : (Severity.all.map Severity.name).Nodup := by decide
  exact Value.isExpressible_table hnames fun s => .int (r.count s)

/-- Each member of a report of the built-in detectors can be expressed. -/
theorem isExpressible_members {source : List Char} {mode : ScanMode} {report : Report}
    (h : analyze source mode = .ok report) :
    ∀ member ∈ report.members, member.2.IsExpressible := by
  obtain ⟨report', h', hfindings, hscores⟩ := exists_analyze source mode
  obtain rfl := Except.ok.inj (h.symm.trans h')
  obtain ⟨_, _, hmake⟩ := exists_eq_make_of_analyzeWith h
  have hsuggestions : (Value.list report.suggestions).IsExpressible := by
    refine .list fun x hx => ?_
    rw [hmake] at hx
    obtain ⟨s, -, rfl⟩ := List.mem_map.1 ((Value.dedup_sublist _).subset hx)
    exact .text s
  have hlist : (Value.list (report.findings.map Finding.toValue)).IsExpressible := by
    refine .list fun x hx => ?_
    obtain ⟨f, hf, rfl⟩ := List.mem_map.1 hx
    rw [hfindings] at hf
    obtain ⟨found, hfound, hf⟩ := List.mem_flatten.1 hf
    exact (isDetected_of_mem_builtinFound hfound f hf).isExpressible
  intro member hmember
  simp only [Report.members, List.mem_cons, List.not_mem_nil, or_false] at hmember
  rcases hmember with rfl | rfl | rfl | rfl | rfl
  · exact .real report.scores.isFinite_overall
  · exact CategoryScores.isExpressible (CategoryScores.isFinite_of_ofFindings hscores)
  · exact report.isExpressible_severityCounts
  · exact hlist
  · exact hsuggestions

/-- **Audits as data.** An audit with a report of the built-in detectors can be expressed. -/
theorem Service.Audit.isExpressible {audit : Service.Audit} {source : List Char} {mode : ScanMode}
    (h : analyze source mode = .ok audit.report) : audit.toValue.IsExpressible := by
  refine Value.isExpressible_record (by simp [Report.members]) fun member hmember => ?_
  rcases List.mem_append.1 hmember with hmember | hmember
  · exact isExpressible_members h member hmember
  · obtain rfl := List.mem_singleton.1 hmember
    unfold Service.Audit.nameValue
    cases audit.contractName with
    | none => exact .null
    | some name => exact .text name

end ContractAudit
