import ContractAudit.Proofs.Score.Range

/-!
# The penalty of code quality

Every finding charges three tenths of its weight against code quality. The charges are added up one
finding at a time and each sum is rounded, so the penalty may depend on the order of the findings;
what they carry does not matter, only how grave each of them is.

One finding more, wherever it stands, changes every later rounding, but it never makes the sum
smaller. Where it comes in, the sum before it is a number of the format already, and rounding does
not go down past such a number; from there on, a larger sum stays at least as large.

Main results:

* `Penalties.get_codeQuality_ofFindings`: the penalty is the sum of the charges.
* `Penalties.qualitySum_congr`: the sum depends on the severities alone.
* `Penalties.qualitySum_insert`: one finding more never makes it smaller.
-/

namespace ContractAudit.Penalties

open Binary64

/-- The charges against code quality, added up one finding at a time. -/
def qualitySum (findings : List Finding) : Binary64 :=
  findings.foldl (fun sum f => sum.add (qualityCharge f.severity.weight)) (.finite 0)

theorem codeQuality_foldl_add {p : Penalties} {x : Binary64} (h : p.codeQuality = .real x)
    (findings : List Finding) :
    (findings.foldl add p).codeQuality =
      .real (findings.foldl (fun sum f => sum.add (qualityCharge f.severity.weight)) x) := by
  induction findings generalizing p x with
  | nil => exact h
  | cons f rest ih =>
    refine ih ?_
    rw [codeQuality_add, h]
    rfl

/-- The penalty of code quality is a whole zero before the first finding, and the sum of the charges
from then on. -/
theorem get_codeQuality_ofFindings (findings : List Finding) :
    (ofFindings findings).get .codeQuality =
      if findings.isEmpty then .int 0 else .real (qualitySum findings) := by
  cases findings with
  | nil => rfl
  | cons f rest =>
    have hfirst : (zero.add f).codeQuality =
        .real ((finite 0).add (qualityCharge f.severity.weight)) := codeQuality_add zero f
    exact codeQuality_foldl_add hfirst rest

/-- Code quality is scored by the sum of the charges, also before the first finding. -/
theorem categoryScore_codeQuality (findings : List Finding) :
    categoryScore ((ofFindings findings).get .codeQuality) =
      categoryScore (.real (qualitySum findings)) := by
  rw [get_codeQuality_ofFindings]
  cases findings with
  | nil => decide +kernel
  | cons f rest => rfl

theorem place?_codeQuality (findings : List Finding) :
    ((ofFindings findings).get .codeQuality).place? = (qualitySum findings).place? := by
  rw [get_codeQuality_ofFindings]
  cases findings with
  | nil => rfl
  | cons f rest => rfl

/-- What the findings carry does not matter. -/
theorem qualitySum_congr {findings others : List Finding}
    (h : others.map (·.severity) = findings.map (·.severity)) :
    qualitySum others = qualitySum findings := by
  have hsum : ∀ fs : List Finding, qualitySum fs =
      (fs.map (·.severity)).foldl (fun sum s => sum.add (qualityCharge s.weight)) (.finite 0) := by
    intro fs
    rw [qualitySum, List.foldl_map]
  rw [hsum, hsum, h]

/-! ## One finding more -/

theorem qualitySum_isNonneg (findings : List Finding) : (qualitySum findings).IsNonneg := by
  have hcharge : ∀ f : Finding, (qualityCharge f.severity.weight).IsNonneg :=
    fun f => qualityCharge_isNonneg f.severity
  exact foldl_add_isNonneg hcharge findings (le_refl (0 : Rat))

/-- The sum is not lost by adding to it. -/
theorem qualitySum_le_add (findings : List Finding) {y : Binary64} (hy : y.IsNonneg) :
    (qualitySum findings).le ((qualitySum findings).add y) = true := by
  rcases List.eq_nil_or_concat findings with rfl | ⟨before, last, rfl⟩
  · exact zero_le_of_isNonneg (add_isNonneg (le_refl (0 : Rat)) hy)
  · -- the sum is what adding the last charge gave
    have hsum : qualitySum (before ++ [last]) =
        (qualitySum before).add (qualityCharge last.severity.weight) := by
      rw [qualitySum, List.foldl_append]
      rfl
    rw [List.concat_eq_append, hsum]
    exact add_le_add_add (qualitySum_isNonneg before) (qualityCharge_isNonneg last.severity) hy

/-- One finding more, wherever it stands, never makes the sum smaller. -/
theorem qualitySum_insert (before after : List Finding) (f : Finding) :
    (qualitySum (before ++ after)).le (qualitySum (before ++ [f] ++ after)) = true := by
  have hcharge : ∀ g : Finding, (qualityCharge g.severity.weight).IsNonneg :=
    fun g => qualityCharge_isNonneg g.severity
  have hbefore := qualitySum_isNonneg before
  -- the sum grows where the finding comes in, and after that the larger one stays the larger one
  have hgrows := qualitySum_le_add before (hcharge f)
  have hlater := foldl_add_mono hcharge hcharge (fun g => le_refl_of_isNonneg (hcharge g)) after
    hbefore (add_isNonneg hbefore (hcharge f)) hgrows
  rw [List.append_assoc, qualitySum, qualitySum, List.foldl_append, List.foldl_append]
  exact hlater

end ContractAudit.Penalties
