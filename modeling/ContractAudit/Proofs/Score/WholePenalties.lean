import ContractAudit.Proofs.Score.Range
import Mathlib.Algebra.BigOperators.Group.List.Basic

/-!
# Whole penalties

Four of the five penalties are whole numbers: the sums of what the findings charge. A finding
charges its weight once against a category that it carries, however often it lists the category
(`Penalties.get_add`), and by induction the penalty of findings is the sum of their charges.

A whole penalty leaves a score without rounding. What counts of it is at most forty, so a fourth of
it is a number of quarters up to ten, and so is what is left of ten; all of these are numbers of
the format.

Main results: `Penalties.get_ofFindings` and `categoryScore_natCast`.
-/

namespace ContractAudit

/-! ## Charges -/

/-- What a finding charges against a category other than code quality. -/
def Finding.charge (f : Finding) (c : Category) : Nat :=
  if c ∈ f.categories then f.severity.weight else 0

/-- A finding of which only what is charged matters. -/
def Finding.charging (severity : Severity) (categories : List Category) : Finding :=
  { (default : Finding) with severity, categories }

theorem nodup_eraseDups (categories : List Category) : categories.eraseDups.Nodup := by
  match categories with
  | [] => simp
  | c :: rest =>
    rw [List.eraseDups_cons, List.nodup_cons]
    refine ⟨?_, nodup_eraseDups _⟩
    simp
termination_by categories.length
decreasing_by exact Nat.lt_succ_of_le (List.length_filter_le _ _)

namespace Penalties

variable {c : Category} (hc : c ≠ .codeQuality)
include hc

theorem get_charge {p : Penalties} {n : Nat} (h : p.get c = .int n) (weight : Nat)
    (d : Category) : (p.charge weight d).get c = .int (n + if d = c then weight else 0 : Nat) := by
  cases d <;> cases c <;> simp_all [charge, get]

theorem get_foldl_charge {p : Penalties} {n : Nat} (h : p.get c = .int n) (weight : Nat)
    (categories : List Category) :
    (categories.foldl (charge weight) p).get c =
      .int (n + weight * categories.count c : Nat) := by
  induction categories generalizing p n with
  | nil => simpa using h
  | cons d rest ih =>
    rw [List.foldl_cons, ih (get_charge hc h weight d), List.count_cons, Number.int.injEq]
    by_cases hd : d = c
    · simp only [hd, if_true, beq_self_eq_true, Nat.mul_add, Nat.mul_one]
      omega
    · simp [hd]

/-- One more finding adds its charge. -/
theorem get_add {p : Penalties} {n : Nat} (h : p.get c = .int n) (f : Finding) :
    (p.add f).get c = .int (n + f.charge c : Nat) := by
  have hwhole : (p.add f).get c =
      (f.categories.eraseDups.foldl (charge f.severity.weight) p).get c := by
    cases c with
    | codeQuality => exact absurd rfl hc
    | _ => rfl
  rw [hwhole, get_foldl_charge hc h, (nodup_eraseDups _).count, Finding.charge]
  simp [List.mem_eraseDups]

theorem get_ofFindings (findings : List Finding) :
    (ofFindings findings).get c = .int ((findings.map (Finding.charge · c)).sum : Nat) := by
  -- the run starts from any penalties, so that the induction carries the sum along
  have hrun : ∀ (p : Penalties) (n : Nat), p.get c = .int n →
      (findings.foldl add p).get c =
        .int (n + (findings.map (Finding.charge · c)).sum : Nat) := by
    induction findings with
    | nil => exact fun p n h => h
    | cons f rest ih =>
      intro p n h
      rw [List.foldl_cons, ih _ _ (get_add hc h f), List.map_cons, List.sum_cons, Nat.add_assoc]
  have hzero : zero.get c = .int (0 : Nat) := by cases c <;> rfl
  rw [ofFindings, hrun zero 0 hzero, Nat.zero_add]

end Penalties

/-! ## Scores -/

/-- The score that a penalty leaves, without rounding. -/
def exactScore (penalty : Rat) : Rat := max 1 (10 - min 40 penalty / 4)

open Binary64 in
/-- Quarters below a hundred and twenty-eight are numbers of the format. -/
theorem round_quarters {k : Nat} (h : k < 512) :
    Binary64.round ((k : Rat) / 4) = .finite ((k : Rat) / 4) := by
  rcases Nat.eq_zero_or_pos k with rfl | hk
  · rw [Nat.cast_zero, zero_div, round_zero]
  have hpos : (0 : Rat) < k / 4 := by positivity
  have hlt : (k : Rat) / 4 < twoPow 7 := by
    have hcast : (k : Rat) < 512 := by exact_mod_cast h
    rw [twoPow_eq_zpow]
    norm_num
    linarith
  have hquarters : (k : Rat) / 4 = (k : Int) * twoPow (-2) := by
    rw [twoPow_eq_zpow]
    norm_num
    ring
  have hexp : spacingExponent ((k : Rat) / 4) ≤ -2 := by
    have hlog := floorLog2_lt_of_lt hpos hlt
    rw [spacingExponent_of_pos hpos]
    omega
  have hrange : twoPow 7 ≤ overflowBound := twoPow_mono (by decide)
  rw [round_of_nonneg hpos.le, rounded_eq_self hquarters hexp,
    if_neg (not_le.2 (hlt.trans_le hrange))]

theorem categoryScore_natCast (n : Nat) :
    categoryScore (.int n) = .ok (.finite (exactScore n)) := by
  have hle : min 40 n ≤ 40 := Nat.min_le_left _ _
  have hcounted : (Number.int n).counted = (min 40 n : Nat) := by
    rw [Nat.cast_min]
    rfl
  have hexact : exactScore n = max 1 (10 - ((min 40 n : Nat) : Rat) / 4) := by
    rw [exactScore, Nat.cast_min]
    rfl
  have hquarter := quarter_counted (n := .int n) (Int.natCast_nonneg n)
  rw [hcounted] at hquarter
  rw [hexact]
  generalize min 40 n = k at hquarter hle ⊢
  -- neither the quotient nor the difference is rounded
  have hleft : Binary64.round (10 - (k : Rat) / 4) = .finite (10 - (k : Rat) / 4) := by
    have hquarters : 10 - (k : Rat) / 4 = ((40 - k : Nat) : Rat) / 4 := by
      rw [Nat.cast_sub hle]
      ring
    rw [hquarters, round_quarters (by omega)]
  rw [round_quarters (by omega)] at hquarter
  exact categoryScore_eq_max hquarter hleft

end ContractAudit
