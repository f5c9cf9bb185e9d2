import ContractAudit.Proofs.Score.QualityPenalty
import ContractAudit.Proofs.Score.WholePenalties
import Mathlib.Data.List.Forall2

/-!
# What a finding is charged for

Of a finding only its severity and its categories are charged, and of the categories only which they
are. The penalty of a category is the sum of the weights of the findings that carry it, so neither
the order of the findings matters, nor the order in which a finding lists its categories, nor how
often it lists one.

Code quality is charged whatever a finding carries. Listing it as a category charges nothing more
and leaving it out nothing less; but the order of the severities may matter, since the sum of the
charges is rounded.

Main result: `penalties_by_category`.
-/

namespace ContractAudit

/-- The weights of the findings that carry a category, added up. -/
def carriedWeight (findings : List Finding) (c : Category) : Nat :=
  ((findings.filter fun f => decide (c ∈ f.categories)).map (·.severity.weight)).sum

theorem sum_map_charge (findings : List Finding) (c : Category) :
    (findings.map (Finding.charge · c)).sum = carriedWeight findings c := by
  induction findings with
  | nil => rfl
  | cons f rest ih =>
    rw [List.map_cons, List.sum_cons, ih, carriedWeight, carriedWeight, List.filter_cons,
      Finding.charge]
    by_cases hc : c ∈ f.categories
    · rw [if_pos hc, if_pos (decide_eq_true hc), List.map_cons, List.sum_cons]
    · rw [if_neg hc, if_neg (by simpa using hc), Nat.zero_add]

theorem carriedWeight_append (findings others : List Finding) (c : Category) :
    carriedWeight (findings ++ others) c = carriedWeight findings c + carriedWeight others c := by
  simp only [carriedWeight, List.filter_append, List.map_append, List.sum_append]

/-! ## Findings that are charged alike -/

/-- Two findings are as grave as each other and carry the same categories, in any order and however
often each is listed. -/
structure Finding.ChargedAlike (f g : Finding) : Prop where
  severity_eq : f.severity = g.severity
  mem_iff : ∀ c, c ∈ f.categories ↔ c ∈ g.categories

theorem Finding.ChargedAlike.charge_eq {f g : Finding} (h : f.ChargedAlike g) (c : Category) :
    f.charge c = g.charge c := by
  simp only [Finding.charge, h.mem_iff c, h.severity_eq]

theorem map_charge_eq {findings others : List Finding}
    (h : List.Forall₂ Finding.ChargedAlike findings others) (c : Category) :
    findings.map (Finding.charge · c) = others.map (Finding.charge · c) := by
  induction h with
  | nil => rfl
  | cons hfg _ ih => rw [List.map_cons, List.map_cons, hfg.charge_eq c, ih]

/-- The findings of one list are charged like those of the other, taken in some order. -/
def Rearranged (findings others : List Finding) : Prop :=
  ∃ reordered, findings.Perm reordered ∧ List.Forall₂ Finding.ChargedAlike reordered others

theorem Rearranged.carriedWeight_eq {findings others : List Finding}
    (h : Rearranged findings others) (c : Category) :
    carriedWeight others c = carriedWeight findings c := by
  obtain ⟨reordered, hperm, halike⟩ := h
  rw [← sum_map_charge, ← sum_map_charge, ← map_charge_eq halike c]
  exact ((hperm.map (Finding.charge · c)).sum_eq).symm

/-! ## Penalties and scores -/

section Whole

variable {c : Category} (hc : c ≠ .codeQuality)
include hc

theorem Penalties.get_ofFindings_eq_carriedWeight (findings : List Finding) :
    (ofFindings findings).get c = .int (carriedWeight findings c : Nat) := by
  rw [get_ofFindings hc, sum_map_charge]

/-- The score of a category is that of the weights of the findings that carry it. -/
theorem CategoryScores.exists_carriedWeight (findings : List Finding) :
    ∃ scores, ofFindings findings = .ok scores ∧
      (scores.get c).value = .finite (exactScore (carriedWeight findings c)) := by
  obtain ⟨scores, hscores, hscore⟩ := exists_ofFindings findings
  have hvalue := hscore c
  rw [Penalties.get_ofFindings_eq_carriedWeight hc, categoryScore_natCast] at hvalue
  exact ⟨scores, hscores, (Except.ok.inj hvalue).symm⟩

end Whole

/-- **Charges.** The penalty of a category but code quality is the sum of the weights of the
findings that carry it, each counted once. It and the score that it leaves are the same when the
findings are reordered and their categories are reordered or repeated, and the penalties of two
lists add up to that of both together. The penalty of code quality is the same for all findings with
the same severities in the same order, whatever categories they list. -/
theorem penalties_by_category (findings others : List Finding) :
    (∀ c, c ≠ .codeQuality →
      (Penalties.ofFindings findings).get c = .int (carriedWeight findings c : Nat) ∧
      (Rearranged findings others →
        (Penalties.ofFindings others).get c = (Penalties.ofFindings findings).get c ∧
        ∃ scores scores', CategoryScores.ofFindings findings = .ok scores ∧
          CategoryScores.ofFindings others = .ok scores' ∧
          (scores'.get c).value = (scores.get c).value) ∧
      (Penalties.ofFindings (findings ++ others)).get c =
        .int (carriedWeight findings c + carriedWeight others c : Nat) ∧
      ∃ scores, CategoryScores.ofFindings (findings ++ others) = .ok scores ∧
        (scores.get c).value =
          .finite (exactScore (carriedWeight findings c + carriedWeight others c : Nat))) ∧
    (others.map (·.severity) = findings.map (·.severity) →
      (Penalties.ofFindings others).get .codeQuality =
        (Penalties.ofFindings findings).get .codeQuality) := by
  constructor
  · intro c hc
    have hpenalty := Penalties.get_ofFindings_eq_carriedWeight hc
    refine ⟨hpenalty findings, fun h => ⟨?_, ?_⟩, ?_, ?_⟩
    · rw [hpenalty, hpenalty, h.carriedWeight_eq c]
    · obtain ⟨scores, hscores, hvalue⟩ := CategoryScores.exists_carriedWeight hc findings
      obtain ⟨scores', hscores', hvalue'⟩ := CategoryScores.exists_carriedWeight hc others
      rw [h.carriedWeight_eq c] at hvalue'
      exact ⟨scores, scores', hscores, hscores', hvalue'.trans hvalue.symm⟩
    · rw [hpenalty, carriedWeight_append]
    · obtain ⟨scores, hscores, hvalue⟩ :=
        CategoryScores.exists_carriedWeight hc (findings ++ others)
      rw [carriedWeight_append] at hvalue
      exact ⟨scores, hscores, hvalue⟩
  · intro h
    -- lists with the same severities are empty together
    have hempty : others.isEmpty = findings.isEmpty := by
      have hlength := congrArg List.isEmpty h
      rwa [List.isEmpty_map, List.isEmpty_map] at hlength
    rw [Penalties.get_codeQuality_ofFindings, Penalties.get_codeQuality_ofFindings, hempty,
      Penalties.qualitySum_congr h]

/-- Two findings, and the same two in the other order with a category repeated and code quality
listed; and two with the severities in their first order but no categories at all. -/
theorem penalties_by_category_repeated :
    let findings : List Finding :=
      [.charging .high [.security, .performance], .charging .low [.security]]
    let rearranged : List Finding :=
      [.charging .low [.security, .security], .charging .high [.performance, .security]]
    let bare : List Finding := [.charging .high [.codeQuality], .charging .low []]
    Rearranged findings rearranged ∧
    (Penalties.ofFindings rearranged).get .security =
      (Penalties.ofFindings findings).get .security ∧
    (Penalties.ofFindings findings).get .security = .int 10 ∧
    (Penalties.ofFindings bare).get .codeQuality =
      (Penalties.ofFindings findings).get .codeQuality := by
  intro findings rearranged bare
  have hrearranged : Rearranged findings rearranged := by
    refine ⟨[.charging .low [.security], .charging .high [.security, .performance]],
      List.Perm.swap _ _ [], .cons ⟨rfl, ?_⟩ (.cons ⟨rfl, ?_⟩ .nil)⟩
    · intro c
      cases c <;> decide
    · intro c
      cases c <;> decide
  obtain ⟨hpenalty, hsame, -⟩ :=
    (penalties_by_category findings rearranged).1 .security (by decide)
  exact ⟨hrearranged, (hsame hrearranged).1, hpenalty,
    (penalties_by_category findings bare).2 rfl⟩

end ContractAudit
