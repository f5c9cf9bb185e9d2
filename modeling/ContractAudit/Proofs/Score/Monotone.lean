import ContractAudit.Proofs.Score.QualityPenalty
import ContractAudit.Proofs.Score.WholePenalties

/-!
# One finding more never raises a score

A finding that is put anywhere into a list of findings charges some categories and takes nothing
back, so one would expect that no score rises. The scores are computed with rounded operations, and
the finding changes the operands of all that follow it; that no rounding turns the order around has
to be shown for each of them.

* **Penalties.** The four whole penalties are sums of charges, one of which is added. The penalty of
  code quality is a rounded sum, which does not become smaller either
  (`Penalties.qualitySum_insert`).
* **Scores.** What counts of a penalty grows with it (`Number.counted_mono`), and a score falls with
  what counts, through the rounded quotient and the rounded difference (`categoryScore_antitone`).
* **Overall.** The overall score is monotone in the five scores (`CategoryScores.overall_mono`).

Main result: `CategoryScores.ofFindings_insert`.
-/

namespace ContractAudit

open Binary64

/-! ## Larger penalties -/

namespace Number

/-- A penalty lies at a number that is not negative, or past the range. -/
theorem IsPenalty.place?_cases {n : Number} (h : n.IsPenalty) :
    (∃ q, n.place? = some (.at q)) ∨ n.place? = some .top := by
  cases n with
  | int k => exact Or.inl ⟨k, rfl⟩
  | real x =>
    rcases isNonneg_cases h with ⟨q, rfl, -⟩ | rfl
    · exact Or.inl ⟨q, rfl⟩
    · exact Or.inr rfl

/-- More counts of a larger penalty. -/
theorem counted_mono {m n : Number} (hm : m.IsPenalty) (hn : n.IsPenalty) (h : n.lt m = false) :
    m.counted ≤ n.counted := by
  rcases hn.place?_cases with ⟨b, hb⟩ | hb
  · rcases hm.place?_cases with ⟨a, ha⟩ | ha
    · have hle : a ≤ b := by simpa [lt, ha, hb, Place.before] using h
      simp only [counted, ha, hb]
      exact min_le_min_left 40 hle
    · simp [lt, ha, hb, Place.before] at h
  · -- past the range all that may count does
    have hforty : n.counted = 40 := by simp only [counted, hb]
    rw [hforty]
    exact (counted_mem hm).2

end Number

/-- A larger penalty does not leave a larger score. -/
theorem categoryScore_antitone {m n : Number} (hm : m.IsPenalty) (hn : n.IsPenalty)
    (h : n.lt m = false) :
    ∃ p q, categoryScore m = .ok (.finite p) ∧ categoryScore n = .ok (.finite q) ∧ q ≤ p := by
  obtain ⟨a, left, ha, hleft, -, -, hscore⟩ := exists_categoryScore hm
  obtain ⟨b, left', hb, hleft', hb10, -, hscore'⟩ := exists_categoryScore hn
  refine ⟨max 1 left, max 1 left', hscore, hscore', max_le_max_left 1 ?_⟩
  -- a larger penalty has a larger fourth, and that leaves less of ten
  have hquarter : m.counted / 4 ≤ n.counted / 4 := by
    linarith [Number.counted_mono hm hn h]
  have hfourth : a ≤ b := by
    have hround := round_le_round (div_nonneg (Number.counted_mem hm).1 (by norm_num)) hquarter
    rwa [ha, hb, le_finite_iff] at hround
  have hround := round_le_round (p := 10 - b) (q := 10 - a) (by linarith) (by linarith)
  rwa [hleft, hleft', le_finite_iff] at hround

/-! ## One finding more -/

/-- The penalty of a category does not fall when a finding is put in anywhere. -/
theorem Penalties.get_insert (before after : List Finding) (f : Finding) (c : Category) :
    ((ofFindings (before ++ [f] ++ after)).get c).lt ((ofFindings (before ++ after)).get c) =
      false := by
  by_cases hc : c = .codeQuality
  · subst hc
    have hle := qualitySum_insert before after f
    rw [Number.lt, place?_codeQuality, place?_codeQuality]
    exact lt_eq_false_of_le hle
  · -- the charge of the finding is one more summand
    rw [get_ofFindings hc, get_ofFindings hc, Number.lt_int, decide_eq_false_iff_not, not_lt]
    simp only [List.map_append, List.sum_append]
    omega

namespace CategoryScores

/-- **One finding more.** Put a finding anywhere into a list of findings: both lists have scores, no
category has a higher score with the finding than without, and the overall score is not higher
either. -/
theorem ofFindings_insert (before after : List Finding) (f : Finding) :
    ∃ without withIt, ofFindings (before ++ after) = .ok without ∧
      ofFindings (before ++ [f] ++ after) = .ok withIt ∧
      (∀ c, (withIt.get c).value.le (without.get c).value = true) ∧
      withIt.overall.le without.overall = true := by
  obtain ⟨without, hwithout, hscore⟩ := exists_ofFindings (before ++ after)
  obtain ⟨withIt, hwith, hscore'⟩ := exists_ofFindings (before ++ [f] ++ after)
  have hle : ∀ c, (withIt.get c).value.le (without.get c).value = true := by
    intro c
    obtain ⟨p, q, hp, hq, hqp⟩ := categoryScore_antitone
      (Penalties.get_isPenalty (Penalties.codeQuality_ofFindings _) c)
      (Penalties.get_isPenalty (Penalties.codeQuality_ofFindings _) c)
      (Penalties.get_insert before after f c)
    rw [hscore] at hp
    rw [hscore'] at hq
    rw [Except.ok.inj hp, Except.ok.inj hq]
    exact le_finite_iff.2 hqp
  exact ⟨without, withIt, hwithout, hwith, hle, overall_mono hle⟩

end CategoryScores

end ContractAudit
