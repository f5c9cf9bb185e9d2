import ContractAudit.Proofs.Binary64.Error
import ContractAudit.Proofs.Score.QualityPenalty
import ContractAudit.Proofs.Score.WholePenalties
import Mathlib.Algebra.Order.Group.MinMax
import Mathlib.Algebra.Order.BigOperators.Group.List

/-!
# The overall score against exact arithmetic

Neither the shares of the categories nor the charges against code quality are numbers of the
format, so an overall score is computed through many roundings: one for each charge and each sum of
charges, then one for each weighted score and each sum of these. Here it is compared with
`exactOverall`, the same formula over the rational numbers, rounded half up (`halfUp`).

* **Distance.** Every number on the way is within a few thousand `step`s of the exact one. Only the
  sum of the charges grows without a bound; its distance grows with it (`Follows.add`), but from
  forty on the sum counts as forty, whatever it is.
* **Grid.** Exact scores are fortieths, so what is rounded down for the exact overall score is a
  number of fortieths (`exists_lifted_eq`). What is rounded down for the computed one is less than a
  fortieth away from it, and has the same whole part unless the exact one is itself whole, a tie
  between two tenths (`floor_cases`).
* **Ties.** At a tie a weighted sum that is not below the exact one goes up, since the tie itself is
  not rounded any more (`lifted_of_isTie`). One below it can stay a tenth short.

Main results:

* `overall_eq_halfUp`: the overall score is the exact one rounded half up, whatever the order of the
  findings, unless the exact one is a tie; at a tie it is that or one tenth less.
* `overall_below_tie`: findings at a tie that are one tenth short, and findings at a tie for which
  the order decides.
-/

namespace ContractAudit

open Binary64

/-! ## The exact score -/

/-- The penalty of a category, without rounding. -/
def exactPenalty (findings : List Finding) : Category → Rat
  | .codeQuality => 3 / 10 * ((findings.map (·.severity.weight)).sum : Nat)
  | c => ((findings.map (Finding.charge · c)).sum : Nat)

theorem exactPenalty_of_ne (findings : List Finding) {c : Category} (hc : c ≠ .codeQuality) :
    exactPenalty findings c = ((findings.map (Finding.charge · c)).sum : Nat) := by
  cases c with
  | codeQuality => exact absurd rfl hc
  | _ => rfl

/-- The overall score before it is rounded to a decimal place, without rounding. -/
def exactOverall (findings : List Finding) : Rat :=
  3 / 10 * exactScore (exactPenalty findings .security) +
    2 / 10 * exactScore (exactPenalty findings .gasEfficiency) +
    2 / 10 * exactScore (exactPenalty findings .performance) +
    2 / 10 * exactScore (exactPenalty findings .codeQuality) +
    1 / 10 * exactScore (exactPenalty findings .documentation)

/-- Tenths of a number, rounded half up, without other rounding. -/
def halfUp (x : Rat) : Int := (10 * x + 1 / 2).floor

/-- The number lies half way between two tenths. -/
def IsTie (x : Rat) : Prop := 10 * x + 1 / 2 = halfUp x

instance (x : Rat) : Decidable (IsTie x) := inferInstanceAs (Decidable (_ = _))

/-! ## The penalty of code quality -/

theorem Severity.weight_mem (s : Severity) : 1 ≤ s.weight ∧ s.weight ≤ 10 := by
  cases s <;> decide

theorem qualityCharge_near (s : Severity) :
    Near (11 * step) (Penalties.qualityCharge s.weight) (3 / 10 * s.weight) := by
  have hweight : Binary64.ofInt s.weight = .finite s.weight := by cases s <;> decide +kernel
  have hle : (s.weight : Rat) ≤ 10 := by exact_mod_cast s.weight_mem.2
  have hshare : Near step Penalties.codeQualityShare (3 / 10) :=
    round_near (by norm_num) (by norm_num)
  have hproduct := (near_finite (Nat.cast_nonneg s.weight)).mul hshare (a := 10) (b := 1)
    (by linarith) (by norm_num) (by norm_num) (by norm_num [step])
  rw [Penalties.qualityCharge, hweight, mul_comm (3 / 10 : Rat)]
  exact hproduct.mono (by linarith)

/-- What a sum of charges is known to be when the weights add up to `total`: it is near three tenths
of the total, until it is beyond what counts of a penalty. -/
def Follows (x : Binary64) (total : Nat) : Prop :=
  (total < 140 ∧ Near (12 * total * step) x (3 / 10 * total)) ∨
    (140 ≤ total ∧ x.IsNonneg ∧ (finite 40).le x = true)

theorem follows_zero : Follows (.finite 0) 0 := by
  refine Or.inl ⟨by norm_num, ?_⟩
  simpa using near_finite (le_refl 0)

/-- One more charge keeps the sum near its exact value. -/
theorem Follows.add {x : Binary64} {total : Nat} (h : Follows x total) (s : Severity) :
    Follows (x.add (Penalties.qualityCharge s.weight)) (total + s.weight) := by
  obtain ⟨hlow, hhigh⟩ := s.weight_mem
  have hcharge := Penalties.qualityCharge_isNonneg s
  rcases h with ⟨htotal, hnear⟩ | ⟨htotal, hnonneg, hle⟩
  · have hlow' : (1 : Rat) ≤ s.weight := by exact_mod_cast hlow
    have hhigh' : (s.weight : Rat) ≤ 10 := by exact_mod_cast hhigh
    have htotal' : (total : Rat) ≤ 139 := by exact_mod_cast Nat.le_of_lt_succ htotal
    have hsum := (hnear.add (qualityCharge_near s) (by rw [step]; linarith)).mono
      (δ := 12 * (total + s.weight : Nat) * step) (by rw [step]; push_cast; linarith)
    rw [← mul_add, ← Nat.cast_add] at hsum
    by_cases hnext : total + s.weight < 140
    · exact Or.inl ⟨hnext, hsum⟩
    · -- three tenths of 140 are 42, and the error is far smaller than what this is above 40
      obtain ⟨v, hv, hv0, herror⟩ := hsum
      have hnext' : (140 : Rat) ≤ (total + s.weight : Nat) := by exact_mod_cast not_lt.1 hnext
      have hlast : ((total + s.weight : Nat) : Rat) ≤ 149 := by
        push_cast
        linarith
      refine Or.inr ⟨not_lt.1 hnext, ?_, ?_⟩
      · rw [hv]
        exact hv0
      · rw [hv, le_finite_iff]
        have hbelow := (abs_le.1 herror).1
        rw [step] at hbelow
        linarith
  · refine Or.inr ⟨by omega, add_isNonneg hnonneg hcharge, ?_⟩
    -- adding zero to forty is forty, and both operands are at least as large
    have hforty : (finite 40).add (.finite 0) = .finite 40 := by decide +kernel
    have hforty0 : (finite 40).IsNonneg := by
      show (0 : Rat) ≤ 40
      norm_num
    rw [← hforty]
    exact add_mono hforty0 (le_refl (0 : Rat)) hnonneg hcharge hle (zero_le_of_isNonneg hcharge)

theorem follows_qualitySum (findings : List Finding) :
    Follows (Penalties.qualitySum findings) (findings.map (·.severity.weight)).sum := by
  -- the run starts from any sum, so that the induction carries the total along
  have hrun : ∀ (x : Binary64) (total : Nat), Follows x total →
      Follows (findings.foldl
        (fun sum f => sum.add (Penalties.qualityCharge f.severity.weight)) x)
        (total + (findings.map (·.severity.weight)).sum) := by
    induction findings with
    | nil => exact fun x total h => h
    | cons f rest ih =>
      intro x total h
      rw [List.foldl_cons, List.map_cons, List.sum_cons, ← Nat.add_assoc]
      exact ih _ _ (h.add f.severity)
  have hall := hrun (.finite 0) 0 follows_zero
  rwa [Nat.zero_add] at hall

/-! ## Scores from penalties that are near -/

/-- Neither the most that counts of a penalty nor the least score adds to a distance. -/
theorem abs_max_sub_exactScore_le (left v p : Rat) :
    |max 1 left - exactScore p| ≤ |left - (10 - min 40 v / 4)| + |v - p| := by
  have hmin : |min 40 v - min 40 p| ≤ |v - p| := by
    have hboth := abs_min_sub_min_le_max 40 v 40 p
    rwa [sub_self, abs_zero, max_eq_right (abs_nonneg _)] at hboth
  have hleft : |10 - min 40 v / 4 - (10 - min 40 p / 4)| ≤ |v - p| := by
    rw [sub_sub_sub_cancel_left, ← sub_div, abs_div, abs_sub_comm]
    have hfour : |(4 : Rat)| = 4 := by norm_num
    rw [hfour]
    linarith [abs_nonneg (min 40 v - min 40 p)]
  calc |max 1 left - exactScore p|
      ≤ |left - (10 - min 40 p / 4)| := by
        rw [exactScore, max_comm 1, max_comm 1]
        exact abs_max_sub_max_le_abs _ _ 1
    _ ≤ |left - (10 - min 40 v / 4)| + |10 - min 40 v / 4 - (10 - min 40 p / 4)| :=
        abs_sub_le _ _ _
    _ ≤ |left - (10 - min 40 v / 4)| + |v - p| := by linarith

/-- A penalty that is near leaves a score that is near. -/
theorem categoryScore_near {ε p v : Rat} (hv : 0 ≤ v) (h : |v - p| ≤ ε) :
    ∃ x, categoryScore (.real (.finite v)) = .ok x ∧ Near (ε + 2 * step) x (exactScore p) := by
  have hquarter : 0 ≤ min 40 v / 4 ∧ min 40 v / 4 ≤ 10 := by
    have hmin := min_le_left 40 v
    have hmin0 : 0 ≤ min 40 v := le_min (by norm_num) hv
    constructor <;> linarith
  obtain ⟨q, hq, hq0, hq10⟩ := exists_round_upToTen hquarter.1 hquarter.2
  obtain ⟨_, hq', -, hqerror⟩ := round_near hquarter.1 (hquarter.2.trans_lt (by norm_num))
  obtain rfl := Binary64.finite.inj (hq.symm.trans hq')
  -- what is left of ten is rounded once more
  have hdifference : |10 - q - (10 - min 40 v / 4)| ≤ step := by
    rw [sub_sub_sub_cancel_left, abs_sub_comm]
    exact hqerror
  obtain ⟨left, hleft, -, hlefterror⟩ :=
    round_near_of_abs_sub_le (v := 10 - q) (by linarith) (by linarith) hdifference
  refine ⟨_, categoryScore_eq_max (hq ▸ quarter_counted (n := .real (.finite v)) hv) hleft, max 1 left, rfl,
    zero_le_one.trans (le_max_left _ _), ?_⟩
  linarith [abs_max_sub_exactScore_le left v p]

/-- A penalty from forty on counts as forty, also one past the range. -/
theorem categoryScore_of_forty_le {x : Binary64} (hx : x.IsNonneg)
    (h : (finite 40).le x = true) : categoryScore (.real x) = .ok (.finite 1) := by
  have hlt : (Number.real x).lt (.int maxPenalty) = false := by
    rcases isNonneg_cases hx with ⟨v, rfl, -⟩ | rfl
    · rw [le_finite_iff] at h
      simpa [Number.lt, Number.place?, place?, Place.before, maxPenalty] using h
    · rfl
  have hforty : categoryScore (.real x) = categoryScore (.int maxPenalty) := by
    simp only [categoryScore, hlt]
    rfl
  rw [hforty]
  decide +kernel

/-- The score of code quality is near the exact one. -/
theorem categoryScore_qualitySum (findings : List Finding) :
    ∃ x, categoryScore (.real (Penalties.qualitySum findings)) = .ok x ∧
      Near (1700 * step) x (exactScore (exactPenalty findings .codeQuality)) := by
  rcases follows_qualitySum findings with ⟨htotal, v, hv, hv0, herror⟩ | ⟨htotal, hnonneg, hle⟩
  · obtain ⟨x, hx, hnear⟩ := categoryScore_near hv0 herror
    refine ⟨x, by rw [hv, hx], hnear.mono ?_⟩
    have htotal' : ((findings.map (·.severity.weight)).sum : Nat) ≤ (139 : Rat) := by
      exact_mod_cast Nat.le_of_lt_succ htotal
    rw [step]
    linarith
  · refine ⟨_, categoryScore_of_forty_le hnonneg hle, 1, rfl, zero_le_one, ?_⟩
    have htotal' : (140 : Rat) ≤ ((findings.map (·.severity.weight)).sum : Nat) := by
      exact_mod_cast htotal
    have hexact : exactScore (exactPenalty findings .codeQuality) = 1 := by
      rw [exactScore, exactPenalty, min_eq_left (by linarith)]
      norm_num
    rw [hexact, sub_self, abs_zero, step]
    norm_num

/-- Every score of findings is near the exact one. -/
theorem score_near {findings : List Finding} {scores : CategoryScores}
    (h : CategoryScores.ofFindings findings = .ok scores) (c : Category) :
    Near (1700 * step) (scores.get c).value (exactScore (exactPenalty findings c)) := by
  obtain ⟨others, hothers, hscore⟩ := CategoryScores.exists_ofFindings findings
  obtain rfl : others = scores := Except.ok.inj (hothers.symm.trans h)
  have hvalue := hscore c
  by_cases hc : c = .codeQuality
  · subst hc
    obtain ⟨x, hx, hnear⟩ := categoryScore_qualitySum findings
    rw [Penalties.categoryScore_codeQuality, hx] at hvalue
    rwa [← Except.ok.inj hvalue]
  · rw [Penalties.get_ofFindings hc, categoryScore_natCast] at hvalue
    rw [← Except.ok.inj hvalue, exactPenalty_of_ne findings hc]
    refine (near_finite ?_).mono ?_
    · exact zero_le_one.trans (le_max_left _ _)
    · rw [step]
      norm_num

/-! ## The weighted sum -/

theorem exactScore_mem {p : Rat} (hp : 0 ≤ p) : 1 ≤ exactScore p ∧ exactScore p ≤ 10 := by
  have hmin : 0 ≤ min 40 p := le_min (by norm_num) hp
  exact ⟨le_max_left _ _, max_le (by norm_num) (by linarith)⟩

theorem exactPenalty_nonneg (findings : List Finding) (c : Category) :
    0 ≤ exactPenalty findings c := by
  cases c with
  | codeQuality => exact mul_nonneg (by norm_num) (Nat.cast_nonneg _)
  | _ => exact Nat.cast_nonneg _

theorem share_near {findings : List Finding} {scores : CategoryScores}
    (h : CategoryScores.ofFindings findings = .ok scores) (c : Category) :
    Near (1800 * step) (scores.share c)
      (CategoryScores.weight c * exactScore (exactPenalty findings c)) := by
  obtain ⟨hlow, hhigh⟩ := exactScore_mem (exactPenalty_nonneg findings c)
  have hweight := CategoryScores.weight_mem c
  have hround : Near step (.round (CategoryScores.weight c)) (CategoryScores.weight c) :=
    round_near hweight.1 (hweight.2.trans_lt (by norm_num))
  -- eleven is a score with its error, and one bounds the shares
  have hproduct := (score_near h c).mul hround (a := 11) (b := 1) (by rw [step]; linarith)
    hweight.1 hweight.2 (by norm_num [step])
  rw [mul_comm (CategoryScores.weight c)]
  exact hproduct.mono (by rw [step]; norm_num)

theorem exactOverall_eq_sum (findings : List Finding) :
    exactOverall findings = (Category.all.map fun c =>
      CategoryScores.weight c * exactScore (exactPenalty findings c)).sum := by
  simp only [exactOverall, Category.all, CategoryScores.weight, List.map_cons, List.map_nil,
    List.sum_cons, List.sum_nil]
  ring

theorem exactOverall_mem (findings : List Finding) :
    1 ≤ exactOverall findings ∧ exactOverall findings ≤ 10 := by
  have hscore := fun c => exactScore_mem (exactPenalty_nonneg findings c)
  have hsecurity := hscore .security
  have hgas := hscore .gasEfficiency
  have hperformance := hscore .performance
  have hquality := hscore .codeQuality
  have hdocumentation := hscore .documentation
  rw [exactOverall]
  constructor <;> linarith

/-- The weighted sum is near the exact one. -/
theorem weighted_near {findings : List Finding} {scores : CategoryScores}
    (h : CategoryScores.ofFindings findings = .ok scores) :
    Near (9100 * step) scores.weighted (exactOverall findings) := by
  -- five shares, each at most 1800 steps off, and one more step for each sum
  have hsum := (near_finite (le_refl 0)).foldl_add (fun c => share_near h c)
    (fun c => mul_nonneg (CategoryScores.weight_mem c).1
      (zero_le_one.trans (exactScore_mem (exactPenalty_nonneg findings c)).1)) Category.all
    (by
      rw [← exactOverall_eq_sum, step]
      have hhigh := (exactOverall_mem findings).2
      norm_num [Category.all]
      linarith)
  rw [← exactOverall_eq_sum, zero_add (exactOverall findings)] at hsum
  refine hsum.mono ?_
  rw [step]
  norm_num [Category.all]

/-! ## The tenths -/

/-- An exact score is a number of fortieths, since every penalty is a number of tenths. -/
theorem exists_exactScore_eq (findings : List Finding) (c : Category) :
    ∃ k : Int, exactScore (exactPenalty findings c) = k / 40 := by
  have htenths : ∃ a : Int, exactPenalty findings c = a / 10 := by
    by_cases hc : c = .codeQuality
    · subst hc
      refine ⟨3 * ((findings.map (·.severity.weight)).sum : Nat), ?_⟩
      rw [exactPenalty, Int.cast_mul, Int.cast_ofNat, Int.cast_natCast]
      ring
    · refine ⟨10 * ((findings.map (Finding.charge · c)).sum : Nat), ?_⟩
      rw [exactPenalty_of_ne findings hc, Int.cast_mul, Int.cast_ofNat, Int.cast_natCast]
      ring
  obtain ⟨a, ha⟩ := htenths
  have hcounted : ∃ b : Int, min 40 (exactPenalty findings c) = b / 10 := by
    rcases min_choice 40 (exactPenalty findings c) with h | h
    · exact ⟨400, by rw [h]; norm_num⟩
    · exact ⟨a, h.trans ha⟩
  obtain ⟨b, hb⟩ := hcounted
  rw [exactScore, hb]
  rcases max_choice 1 (10 - (b / 10 : Rat) / 4) with h | h
  · exact ⟨40, by rw [h]; norm_num⟩
  · refine ⟨400 - b, ?_⟩
    rw [h]
    push_cast
    ring

/-- What is rounded down for the exact overall score is a number of fortieths as well. -/
theorem exists_lifted_eq (findings : List Finding) :
    ∃ m : Int, 10 * exactOverall findings + 1 / 2 = m / 40 := by
  obtain ⟨security, hsecurity⟩ := exists_exactScore_eq findings .security
  obtain ⟨gas, hgas⟩ := exists_exactScore_eq findings .gasEfficiency
  obtain ⟨performance, hperformance⟩ := exists_exactScore_eq findings .performance
  obtain ⟨quality, hquality⟩ := exists_exactScore_eq findings .codeQuality
  obtain ⟨documentation, hdocumentation⟩ := exists_exactScore_eq findings .documentation
  refine ⟨3 * security + 2 * gas + 2 * performance + 2 * quality + documentation + 20, ?_⟩
  rw [exactOverall, hsecurity, hgas, hperformance, hquality, hdocumentation]
  push_cast
  ring

/-- A number less than a fortieth away from a number of fortieths has the same whole part, unless
it fell below a whole number. -/
theorem floor_cases {m : Int} {y : Rat} (h : |y - m / 40| < 1 / 40) :
    y.floor = (m / 40 : Rat).floor ∨
      (m / 40 : Rat) = (m / 40 : Rat).floor ∧ y < m / 40 ∧ y.floor = (m / 40 : Rat).floor - 1 := by
  have hbelow : ((m / 40 : Rat).floor : Rat) ≤ m / 40 := Rat.floor_le _
  have habove : (m / 40 : Rat) < (m / 40 : Rat).floor + 1 := by
    exact_mod_cast Rat.lt_floor_add_one (m / 40 : Rat)
  generalize (m / 40 : Rat).floor = n at hbelow habove ⊢
  obtain ⟨hlow, hhigh⟩ := abs_lt.1 h
  have hm : m + 1 ≤ 40 * n + 40 := by
    have hlt : (m : Rat) < 40 * n + 40 := by linarith
    exact_mod_cast hlt
  have hm' : (m : Rat) + 1 ≤ 40 * n + 40 := by exact_mod_cast hm
  have hfloor : ∀ k : Int, (k : Rat) ≤ y → y < k + 1 → y.floor = k :=
    fun k hk hlt => Int.floor_eq_iff.2 ⟨hk, hlt⟩
  by_cases hy : (n : Rat) ≤ y
  · exact Or.inl (hfloor n hy (by linarith))
  · -- only from the whole number itself is less than a fortieth enough to fall below it
    have heq : m = 40 * n := by
      have hle : 40 * (n : Rat) ≤ m := by linarith
      have hlt : (m : Rat) < 40 * n + 1 := by linarith
      have hle' : 40 * n ≤ m := by exact_mod_cast hle
      have hlt' : m < 40 * n + 1 := by exact_mod_cast hlt
      omega
    have hwhole : (m / 40 : Rat) = n := by
      rw [heq]
      push_cast
      ring
    refine Or.inr ⟨hwhole, ?_, hfloor (n - 1) ?_ ?_⟩
    · rw [hwhole]
      exact not_le.1 hy
    · push_cast
      linarith
    · push_cast
      linarith

namespace CategoryScores

/-- At a tie nothing is rounded on the way to the tenths. -/
theorem lifted_of_isTie {x : Rat} (hlow : 1 ≤ x) (hhigh : x ≤ 10) (h : IsTie x) :
    lifted x = .finite (halfUp x) := by
  have hlow' : (1 : Rat) ≤ halfUp x := by
    rw [← h]
    linarith
  have hhigh' : (halfUp x : Rat) ≤ 101 := by
    rw [← h]
    linarith
  obtain ⟨n, hn⟩ := Int.eq_ofNat_of_zero_le (a := halfUp x)
    (zero_le_one.trans (by exact_mod_cast hlow'))
  rw [IsTie, hn] at h
  rw [hn] at hlow' hhigh'
  have hn1 : 1 ≤ n := by exact_mod_cast hlow'
  have hn101 : n ≤ 101 := by exact_mod_cast hhigh'
  -- the product and the sum are numbers of quarters
  have hproduct : x * 10 = ((4 * n - 2 : Nat) : Rat) / 4 := by
    rw [Nat.cast_sub (by omega)]
    push_cast at h ⊢
    linarith
  have hsum : ((4 * n - 2 : Nat) : Rat) / 4 + 1 / 2 = ((4 * n : Nat) : Rat) / 4 := by
    rw [Nat.cast_sub (by omega)]
    push_cast
    ring
  have hwhole : ((4 * n : Nat) : Rat) / 4 = ((n : Int) : Rat) := by
    push_cast
    ring
  rw [lifted, mul_finite (by linarith) (by norm_num), hproduct, round_quarters (by omega),
    add_finite, hsum, round_quarters (by omega), hn, hwhole]

/-- The tenths of a weighted sum that is near: those of the exact one, rounded half up, unless the
exact one is a tie and the sum fell below it. -/
theorem tenths_cases {findings : List Finding} {w : Rat}
    (h : Near (9100 * step) (.finite w) (exactOverall findings)) :
    tenths (.finite w) = halfUp (exactOverall findings) ∨
      IsTie (exactOverall findings) ∧ w < exactOverall findings ∧
        tenths (.finite w) = halfUp (exactOverall findings) - 1 := by
  obtain ⟨hlow, hhigh⟩ := exactOverall_mem findings
  obtain ⟨m, hm⟩ := exists_lifted_eq findings
  have hproduct := h.mul (near_finite (q := 10) (by norm_num)) (a := 11) (b := 10)
    (by rw [step]; linarith) (by norm_num) le_rfl (by norm_num)
  have hlifted := hproduct.add (near_finite (q := 1 / 2) (by norm_num))
    (by rw [step]; linarith)
  obtain ⟨y, hy, -, herror⟩ := hlifted
  change lifted w = .finite y at hy
  rw [mul_comm (exactOverall findings), hm] at herror
  rw [tenths_finite, hy, halfUp, IsTie, halfUp, hm]
  rcases floor_cases (herror.trans_lt (by norm_num [step])) with hfloor | ⟨htie, hbelow, hfloor⟩
  · exact Or.inl hfloor
  · refine Or.inr ⟨htie, ?_, hfloor⟩
    -- a sum that is not below the tie would not be below it after the two roundings either
    by_contra hle
    have htie' : IsTie (exactOverall findings) := by
      rw [IsTie, halfUp, hm]
      exact htie
    have hmono := lifted_mono (zero_le_one.trans hlow) (not_lt.1 hle)
    rw [lifted_of_isTie hlow hhigh htie', hy, le_finite_iff, ← htie', hm] at hmono
    exact absurd hbelow (not_lt.2 hmono)

end CategoryScores

/-! ## The overall score -/

/-- The exact score does not depend on the order of the findings. -/
theorem exactOverall_perm {findings reordered : List Finding} (h : reordered.Perm findings) :
    exactOverall reordered = exactOverall findings := by
  have hpenalty : exactPenalty reordered = exactPenalty findings := by
    funext c
    by_cases hc : c = .codeQuality
    · rw [hc, exactPenalty, exactPenalty, (h.map (·.severity.weight)).sum_eq]
    · rw [exactPenalty_of_ne _ hc, exactPenalty_of_ne _ hc,
        (h.map (Finding.charge · c)).sum_eq]
  rw [exactOverall, exactOverall, hpenalty]

/-- The overall score is the exact one rounded half up, or at a tie the tenth below. -/
theorem overall_cases {findings : List Finding} {scores : CategoryScores}
    (h : CategoryScores.ofFindings findings = .ok scores) :
    scores.overall = .quotient (halfUp (exactOverall findings)) 10 ∨
      IsTie (exactOverall findings) ∧
        (∃ w, scores.weighted = .finite w ∧ w < exactOverall findings) ∧
        scores.overall = .quotient (halfUp (exactOverall findings) - 1) 10 := by
  have hnear := weighted_near h
  obtain ⟨w, hw, -, -⟩ := scores.exists_weighted
  rw [hw] at hnear
  rw [CategoryScores.overall, hw]
  rcases CategoryScores.tenths_cases hnear with htenths | ⟨htie, hbelow, htenths⟩
  · exact Or.inl (by rw [htenths])
  · exact Or.inr ⟨htie, ⟨w, rfl, hbelow⟩, by rw [htenths]⟩

/-- The overall score is the exact one, rounded half up, unless that is a tie between two tenths.
At a tie it is the exact one rounded up, or rounded down where the weighted sum fell below the tie.
Unless there is a tie, it does not depend on the order of the findings. -/
theorem overall_eq_halfUp (findings : List Finding) :
    ∃ scores, CategoryScores.ofFindings findings = .ok scores ∧
      (¬ IsTie (exactOverall findings) →
        scores.overall = .quotient (halfUp (exactOverall findings)) 10 ∧
        ∀ reordered : List Finding, reordered.Perm findings →
          ∃ others, CategoryScores.ofFindings reordered = .ok others ∧
            others.overall = scores.overall) ∧
      (IsTie (exactOverall findings) →
        scores.overall = .quotient (halfUp (exactOverall findings)) 10 ∨
        (∃ w, scores.weighted = .finite w ∧ w < exactOverall findings) ∧
          scores.overall = .quotient (halfUp (exactOverall findings) - 1) 10) := by
  obtain ⟨scores, hscores, -⟩ := CategoryScores.exists_ofFindings findings
  refine ⟨scores, hscores, fun htie => ?_, fun _ => (overall_cases hscores).imp_right And.right⟩
  have hoverall := (overall_cases hscores).resolve_right fun h => htie h.1
  refine ⟨hoverall, fun reordered hperm => ?_⟩
  obtain ⟨others, hothers, -⟩ := CategoryScores.exists_ofFindings reordered
  have hexact := exactOverall_perm hperm
  refine ⟨others, hothers, ?_⟩
  rw [(overall_cases hothers).resolve_right fun h => htie (hexact ▸ h.1), hexact, hoverall]

/-- Two findings whose exact score is 9.33, in both orders, and one whose exact score is the tie
9.55. -/
theorem overall_eq_halfUp_high_info :
    (∃ scores others,
      CategoryScores.ofFindings [.charging .high [.security], .charging .info [.documentation]] =
        .ok scores ∧
      CategoryScores.ofFindings [.charging .info [.documentation], .charging .high [.security]] =
        .ok others ∧
      scores.overall = .quotient 93 10 ∧ others.overall = .quotient 93 10) ∧
    ∃ scores, CategoryScores.ofFindings [.charging .medium [.security]] = .ok scores ∧
      (scores.overall = .quotient 96 10 ∨ scores.overall = .quotient 95 10) := by
  constructor
  · obtain ⟨scores, hscores, hoverall, -⟩ := overall_eq_halfUp
      [.charging .high [.security], .charging .info [.documentation]]
    obtain ⟨hscore, hperm⟩ := hoverall (by decide +kernel)
    obtain ⟨others, hothers, hother⟩ := hperm _ (List.Perm.swap _ _ [])
    have htenths : halfUp (exactOverall
        [.charging .high [.security], .charging .info [.documentation]]) = 93 := by
      decide +kernel
    rw [htenths] at hscore
    exact ⟨scores, others, hscores, hothers, hscore, hother.trans hscore⟩
  · obtain ⟨scores, hscores, -, htie⟩ := overall_eq_halfUp [.charging .medium [.security]]
    have htenths : halfUp (exactOverall [.charging .medium [.security]]) = 96 := by
      decide +kernel
    have hoverall := htie (by decide +kernel)
    rw [htenths] at hoverall
    exact ⟨scores, hscores, hoverall.imp_right And.right⟩

/-- Four findings whose exact score is 7.55 have a weighted sum below that tie, and the overall score
7.5. Eight findings whose exact score is 9.15 have the overall score 9.1 in one order and 9.2 in
another. -/
theorem overall_below_tie :
    (∃ findings : List Finding,
      exactOverall findings = 151 / 20 ∧ halfUp (151 / 20) = 76 ∧
      (CategoryScores.ofFindings findings).map CategoryScores.overall = .ok (.quotient 75 10) ∧
      Binary64.quotient 75 10 ≠ .quotient 76 10) ∧
    ∃ grave lesser notes : List Finding,
      exactOverall (grave ++ (lesser ++ notes)) = 183 / 20 ∧
      (CategoryScores.ofFindings (grave ++ (lesser ++ notes))).map CategoryScores.overall =
        .ok (.quotient 91 10) ∧
      (CategoryScores.ofFindings (grave ++ (notes ++ lesser))).map CategoryScores.overall =
        .ok (.quotient 92 10) := by
  constructor
  · refine ⟨[.charging .critical [.security], .charging .critical [.gasEfficiency],
      .charging .high [.security], .charging .low [.performance, .documentation]], ?_⟩
    decide +kernel
  · refine ⟨[.charging .critical [.documentation], .charging .critical []],
      [.charging .low [], .charging .low []],
      [.charging .info [.performance, .documentation],
        .charging .info [.performance, .documentation],
        .charging .info [], .charging .info []], ?_⟩
    decide +kernel

end ContractAudit
