import ContractAudit.Proofs.Binary64.Order
import ContractAudit.Score.Penalty

/-!
# Scores stay in their range

The penalties of any findings leave five numbers between one and ten, so the check that builds a
`Score` never refuses them, and the overall score of any five scores lies in the same range.

* **Penalties.** Whole penalties are natural numbers. The penalty of code quality is a rounded sum
  of charges; what it keeps from finding to finding is only that it is not negative
  (`Penalties.codeQuality_add_isPenalty`, and by induction `Penalties.codeQuality_ofFindings`).
  However far the sum grows, `categoryScore` counts forty of it.
* **Overall.** Every step of the overall score is monotone, so it lies between the overall scores
  of five ones and of five tens, which are computed.

Main results:

* `quarter_counted`: whole or not, a fourth of a penalty is one rounding of what counts of it.
* `categoryScore_of_isPenalty`: a penalty leaves a number from one to ten.
* `CategoryScores.exists_ofFindings`: findings always have category scores.
* `CategoryScores.overall_mono`: raising scores never lowers the overall score.
* `CategoryScores.overall_between`: the overall score lies between one and ten.
-/

namespace ContractAudit

open Binary64

theorem round_ten : Binary64.round 10 = .finite 10 := by decide +kernel

/-- What lies from zero to ten stays there when it is rounded. -/
theorem exists_round_upToTen {q : Rat} (hlow : 0 ≤ q) (hhigh : q ≤ 10) :
    ∃ value, Binary64.round q = .finite value ∧ 0 ≤ value ∧ value ≤ 10 :=
  round_between round_zero round_ten (le_refl 0) hlow hhigh

theorem isScore_iff {x : Binary64} : isScore x = true ↔ ∃ q, x = .finite q ∧ 1 ≤ q ∧ q ≤ 10 := by
  constructor
  · intro h
    rw [isScore, Bool.and_eq_true] at h
    cases x with
    | nan => cases h.1
    | infinite negative => cases negative <;> simp [minScore, maxScore, Binary64.le, place?,
        Place.before] at h
    | negativeZero => exact absurd h (by decide)
    | finite q => exact ⟨q, rfl, le_finite_iff.1 h.1, le_finite_iff.1 h.2⟩
  · rintro ⟨q, rfl, hlow, hhigh⟩
    rw [isScore, Bool.and_eq_true]
    exact ⟨le_finite_iff.2 hlow, le_finite_iff.2 hhigh⟩

/-! ## Penalties -/

/-- A number that may be a penalty: none is negative. -/
def Number.IsPenalty : Number → Prop
  | .int n => 0 ≤ n
  | .real x => x.IsNonneg

theorem Number.plus_isNonneg {n : Number} {x : Binary64} (hn : n.IsPenalty) (hx : x.IsNonneg) :
    (n.plus x).IsNonneg := by
  cases n with
  | int n =>
    have hcast : (0 : Rat) ≤ n := by exact_mod_cast hn
    exact add_isNonneg (round_isNonneg hcast) hx
  | real y => exact add_isNonneg hn hx

namespace Penalties

theorem qualityCharge_isNonneg (s : Severity) : (qualityCharge s.weight).IsNonneg := by
  have hweight : (0 : Rat) ≤ (s.weight : Int) ∧ ((s.weight : Int) : Rat) ≤ 10 := by
    cases s <;> constructor <;> norm_num [Severity.weight]
  have htenths : (0 : Rat) ≤ 3 / 10 ∧ (3 / 10 : Rat) ≤ 10 := by constructor <;> norm_num
  obtain ⟨w, hw, hw0, -⟩ := exists_round_upToTen hweight.1 hweight.2
  obtain ⟨share, hshare, hshare0, -⟩ := exists_round_upToTen htenths.1 htenths.2
  rw [qualityCharge, codeQualityShare, Binary64.ofInt, hw, hshare]
  exact mul_isNonneg hw0 hshare0

/-- Charging a category leaves the penalty of code quality as it is. -/
theorem codeQuality_foldl_charge (weight : Nat) (categories : List Category) (p : Penalties) :
    (categories.foldl (charge weight) p).codeQuality = p.codeQuality := by
  induction categories generalizing p with
  | nil => rfl
  | cons c rest ih =>
    rw [List.foldl_cons, ih]
    cases c <;> rfl

/-- One more finding adds the charge of its weight against code quality. -/
theorem codeQuality_add (p : Penalties) (f : Finding) :
    (p.add f).codeQuality = .real (p.codeQuality.plus (qualityCharge f.severity.weight)) := by
  show Number.real ((f.categories.eraseDups.foldl (charge f.severity.weight) p).codeQuality.plus
    (qualityCharge f.severity.weight)) = _
  rw [codeQuality_foldl_charge]

/-- One more finding keeps the penalty of code quality from being negative. -/
theorem codeQuality_add_isPenalty {p : Penalties} (h : p.codeQuality.IsPenalty) (f : Finding) :
    (p.add f).codeQuality.IsPenalty := by
  rw [codeQuality_add]
  exact Number.plus_isNonneg h (qualityCharge_isNonneg f.severity)

theorem codeQuality_ofFindings (findings : List Finding) :
    (ofFindings findings).codeQuality.IsPenalty := by
  -- the run starts from any penalties, so that the induction carries the sum along
  have hrun : ∀ p : Penalties, p.codeQuality.IsPenalty →
      (findings.foldl add p).codeQuality.IsPenalty := by
    induction findings with
    | nil => exact fun p h => h
    | cons f rest ih => exact fun p h => ih (p.add f) (codeQuality_add_isPenalty h f)
  exact hrun zero (le_refl (0 : Int))

theorem get_isPenalty {p : Penalties} (h : p.codeQuality.IsPenalty) (c : Category) :
    (p.get c).IsPenalty := by
  cases c with
  | codeQuality => exact h
  | _ => exact Int.natCast_nonneg _

end Penalties

/-! ## Scores from penalties -/

/-- What counts of a penalty. -/
def Number.counted (n : Number) : Rat :=
  match n.place? with
  | some (.at q) => min 40 q
  | _ => 40

theorem Number.counted_mem {n : Number} (h : n.IsPenalty) : 0 ≤ n.counted ∧ n.counted ≤ 40 := by
  have hforty : (0 : Rat) ≤ 40 := by norm_num
  cases n with
  | int k =>
    have hk : (0 : Rat) ≤ k := by exact_mod_cast h
    exact ⟨le_min hforty hk, min_le_left _ _⟩
  | real x =>
    rcases isNonneg_cases h with ⟨q, rfl, hq⟩ | rfl
    · exact ⟨le_min hforty hq, min_le_left _ _⟩
    · exact ⟨hforty, le_refl _⟩

/-- Whole or not, a fourth of what counts of a penalty is rounded once. -/
theorem quarter_counted {n : Number} (h : n.IsPenalty) :
    quarter (if n.lt (.int maxPenalty) then n else .int maxPenalty) =
      .ok (.round (n.counted / 4)) := by
  have hforty : quarter (.int maxPenalty) = .ok (.round (40 / 4)) := by decide +kernel
  obtain ⟨hlow, hhigh⟩ := Number.counted_mem h
  cases n with
  | int k =>
    rw [Number.lt_int]
    by_cases hlt : k < maxPenalty
    · have hk : (k : Rat) < 40 := by exact_mod_cast hlt
      have hcounted : (Number.int k).counted = k := min_eq_right hk.le
      rw [if_pos (decide_eq_true hlt), hcounted]
      rw [hcounted] at hlow hhigh
      -- the quotient is not beyond the largest number
      obtain ⟨q, hq, -, -⟩ := exists_round_upToTen (q := k / 4) (by linarith) (by linarith)
      have hquotient : Binary64.quotient k 4 = .finite q := hq
      rw [quarter, hquotient, hq]
    · have hk : (40 : Rat) ≤ k := by exact_mod_cast not_lt.1 hlt
      have hcounted : (Number.int k).counted = 40 := min_eq_left hk
      rw [if_neg (by simpa using hlt), hcounted, hforty]
  | real x =>
    rcases isNonneg_cases h with ⟨v, rfl, -⟩ | rfl
    · have hlt : (Number.real (.finite v)).lt (.int maxPenalty) = true ↔ v < 40 := by
        simp [Number.lt, Number.place?, place?, Place.before, maxPenalty]
      by_cases hv : v < 40
      · have hcounted : (Number.real (.finite v)).counted = v := min_eq_right hv.le
        rw [if_pos (hlt.2 hv), hcounted, quarter, divNat_finite]
        rfl
      · have hcounted : (Number.real (.finite v)).counted = 40 := min_eq_left (not_lt.1 hv)
        rw [if_neg fun h => hv (hlt.1 h), hcounted, hforty]
    · -- a penalty past the range counts as the whole number forty
      exact hforty

/-- The score is what a fourth of the penalty leaves of ten, but at least one. -/
theorem categoryScore_eq_max {n : Number} {q left : Rat}
    (hquarter : quarter (if n.lt (.int maxPenalty) then n else .int maxPenalty) = .ok (.finite q))
    (hleft : Binary64.round (10 - q) = .finite left) :
    categoryScore n = .ok (.finite (max 1 left)) := by
  have hsub : maxScore.sub (.finite q) = .finite left := by
    rw [maxScore, sub_finite q round_ten, hleft]
  have hscore : categoryScore n =
      .ok (if minScore.lt (.finite left) then .finite left else minScore) := by
    rw [← hsub]
    simp only [categoryScore, hquarter]
    rfl
  have hlt : minScore.lt (.finite left) = true ↔ 1 < left := lt_finite_iff
  rw [hscore]
  by_cases hone : 1 < left
  · rw [if_pos (hlt.2 hone), max_eq_right hone.le]
  · rw [if_neg fun h => hone (hlt.1 h), max_eq_left (not_lt.1 hone), minScore]

/-- A score takes two roundings: of a fourth of what counts of the penalty, and of what it leaves of
ten. -/
theorem exists_categoryScore {n : Number} (h : n.IsPenalty) :
    ∃ q left, Binary64.round (n.counted / 4) = .finite q ∧
      Binary64.round (10 - q) = .finite left ∧ q ≤ 10 ∧ left ≤ 10 ∧
      categoryScore n = .ok (.finite (max 1 left)) := by
  obtain ⟨hlow, hhigh⟩ := Number.counted_mem h
  obtain ⟨q, hq, hq0, hq10⟩ :=
    exists_round_upToTen (q := n.counted / 4) (by linarith) (by linarith)
  obtain ⟨left, hleft, -, hleft10⟩ :=
    exists_round_upToTen (q := 10 - q) (by linarith) (by linarith)
  exact ⟨q, left, hq, hleft, hq10, hleft10, categoryScore_eq_max (hq ▸ quarter_counted h) hleft⟩

/-- A penalty leaves a number from one to ten. -/
theorem categoryScore_of_isPenalty {n : Number} (h : n.IsPenalty) :
    ∃ q, categoryScore n = .ok (.finite q) ∧ 1 ≤ q ∧ q ≤ 10 := by
  obtain ⟨_, left, -, -, -, hleft10, hscore⟩ := exists_categoryScore h
  exact ⟨max 1 left, hscore, le_max_left _ _, max_le (by norm_num) hleft10⟩

/-! ## Category scores -/

theorem Score.check_of_isScore (c : Category) {x : Binary64} (h : isScore x = true) :
    Score.check c x = .ok ⟨x, h⟩ := dif_pos h

theorem Score.exists_value (s : Score) : ∃ q, s.value = .finite q ∧ 1 ≤ q ∧ q ≤ 10 :=
  isScore_iff.1 s.inRange

/-- Penalties that are not negative leave a score for each category, and the range check passes. -/
theorem Penalties.exists_scores {p : Penalties} (h : p.codeQuality.IsPenalty) :
    ∃ scores, p.scores = .ok scores ∧
      ∀ c, categoryScore (p.get c) = .ok (scores.get c).value := by
  have hscore : ∀ c, ∃ x, categoryScore (p.get c) = .ok x ∧ isScore x = true := by
    intro c
    obtain ⟨q, hq, hlow, hhigh⟩ := categoryScore_of_isPenalty (get_isPenalty h c)
    exact ⟨.finite q, hq, isScore_iff.2 ⟨q, rfl, hlow, hhigh⟩⟩
  choose value hvalue hrange using hscore
  refine ⟨⟨⟨_, hrange .security⟩, ⟨_, hrange .gasEfficiency⟩, ⟨_, hrange .performance⟩,
    ⟨_, hrange .codeQuality⟩, ⟨_, hrange .documentation⟩⟩, ?_, ?_⟩
  · -- the five checks pass one after the other
    simp only [Penalties.scores, hvalue, CategoryScores.ofValues]
    simp only [bind, Except.bind, Score.check_of_isScore _ (hrange _)]
    rfl
  · intro c
    rw [hvalue]
    cases c <;> rfl

namespace CategoryScores

/-- Findings always have category scores, each of them what its penalty leaves. -/
theorem exists_ofFindings (findings : List Finding) :
    ∃ scores, ofFindings findings = .ok scores ∧
      ∀ c, categoryScore ((Penalties.ofFindings findings).get c) = .ok (scores.get c).value :=
  Penalties.exists_scores (Penalties.codeQuality_ofFindings findings)

/-! ## The overall score -/

theorem weight_mem (c : Category) : 0 ≤ weight c ∧ weight c ≤ 1 := by
  cases c <;> constructor <;> norm_num [weight]

theorem exists_round_weight (c : Category) :
    ∃ w, Binary64.round (weight c) = .finite w ∧ 0 ≤ w ∧ w ≤ 10 :=
  exists_round_upToTen (weight_mem c).1 ((weight_mem c).2.trans (by norm_num))

/-- What a category adds to the weighted sum. -/
def share (scores : CategoryScores) (c : Category) : Binary64 :=
  (scores.get c).value.mul (.round (weight c))

theorem share_isNonneg (scores : CategoryScores) (c : Category) : (scores.share c).IsNonneg := by
  obtain ⟨q, hq, hq1, -⟩ := (scores.get c).exists_value
  obtain ⟨w, hw, hw0, -⟩ := exists_round_weight c
  rw [share, hq, hw]
  exact mul_isNonneg (by linarith) hw0

theorem share_mono {scores others : CategoryScores} {c : Category}
    (h : (scores.get c).value.le (others.get c).value = true) :
    (scores.share c).le (others.share c) = true := by
  obtain ⟨p, hp, hp1, -⟩ := (scores.get c).exists_value
  obtain ⟨q, hq, -, -⟩ := (others.get c).exists_value
  obtain ⟨w, hw, hw0, -⟩ := exists_round_weight c
  rw [hp, hq, le_finite_iff] at h
  rw [share, share, hp, hq, hw]
  exact mul_mono (by linarith) hw0 h

theorem weighted_isNonneg (scores : CategoryScores) : scores.weighted.IsNonneg :=
  foldl_add_isNonneg scores.share_isNonneg Category.all (le_refl (0 : Rat))

theorem weighted_mono {scores others : CategoryScores}
    (h : ∀ c, (scores.get c).value.le (others.get c).value = true) :
    scores.weighted.le others.weighted = true :=
  foldl_add_mono scores.share_isNonneg others.share_isNonneg (fun c => share_mono (h c))
    Category.all (le_refl (0 : Rat)) (le_refl (0 : Rat)) (le_finite_iff.2 (le_refl 0))

/-- Scores that are the same for every category. -/
def uniform (s : Score) : CategoryScores := ⟨s, s, s, s, s⟩

theorem get_uniform (s : Score) (c : Category) : (uniform s).get c = s := by
  cases c <;> rfl

/-- The least score. -/
def lowest : Score := ⟨minScore, by decide⟩

/-- The greatest score. -/
def highest : Score := ⟨maxScore, by decide⟩

theorem lowest_le (scores : CategoryScores) (c : Category) :
    ((uniform lowest).get c).value.le (scores.get c).value = true := by
  obtain ⟨q, hq, hlow, -⟩ := (scores.get c).exists_value
  rw [get_uniform, hq]
  exact le_finite_iff.2 hlow

theorem le_highest (scores : CategoryScores) (c : Category) :
    (scores.get c).value.le ((uniform highest).get c).value = true := by
  obtain ⟨q, hq, -, hhigh⟩ := (scores.get c).exists_value
  rw [get_uniform, hq]
  exact le_finite_iff.2 hhigh

/-- The weighted sum is a finite number up to ten. -/
theorem exists_weighted (scores : CategoryScores) :
    ∃ q, scores.weighted = .finite q ∧ 0 ≤ q ∧ q ≤ 10 := by
  have htens : (uniform highest).weighted = .finite 10 := by decide +kernel
  have hle := weighted_mono scores.le_highest
  rw [htens] at hle
  exact exists_finite_of_le scores.weighted_isNonneg hle

/-- Ten times a number and a half more, whose whole part counts the tenths. -/
def lifted (q : Rat) : Binary64 := ((finite q).mul (.finite 10)).add (.finite (1 / 2))

theorem tenths_finite (q : Rat) : tenths (.finite q) = (lifted q).floor := rfl

theorem half_isNonneg : (finite (1 / 2)).IsNonneg := by
  show (0 : Rat) ≤ 1 / 2
  norm_num

theorem lifted_isNonneg {q : Rat} (h : 0 ≤ q) : (lifted q).IsNonneg :=
  add_isNonneg (mul_isNonneg h (by norm_num)) half_isNonneg

theorem lifted_mono {p q : Rat} (hp : 0 ≤ p) (h : p ≤ q) : (lifted p).le (lifted q) = true := by
  have hten : (0 : Rat) ≤ 10 := by norm_num
  exact add_mono (mul_isNonneg hp hten) half_isNonneg (mul_isNonneg (hp.trans h) hten)
    half_isNonneg (mul_mono hp hten h) (le_refl_of_isNonneg half_isNonneg)

theorem tenths_mono {p q : Rat} (hp : 0 ≤ p) (h : p ≤ q) (hq : q ≤ 10) :
    0 ≤ tenths (.finite p) ∧ tenths (.finite p) ≤ tenths (.finite q) := by
  have hten : lifted 10 = .finite (201 / 2) := by decide +kernel
  have hq0 : 0 ≤ q := hp.trans h
  -- below ten nothing leaves the range, so both whole parts are those of finite numbers
  obtain ⟨b, hb, -, -⟩ := exists_finite_of_le (lifted_isNonneg hq0) (hten ▸ lifted_mono hq0 hq)
  obtain ⟨a, ha, ha0, hab⟩ := exists_finite_of_le (lifted_isNonneg hp) (hb ▸ lifted_mono hp h)
  rw [tenths_finite, tenths_finite, ha, hb]
  exact ⟨Rat.le_floor_iff.2 ha0, Rat.floor_monotone hab⟩

/-- Raising scores never lowers the overall score. -/
theorem overall_mono {scores others : CategoryScores}
    (h : ∀ c, (scores.get c).value.le (others.get c).value = true) :
    scores.overall.le others.overall = true := by
  obtain ⟨p, hp, hp0, -⟩ := scores.exists_weighted
  obtain ⟨q, hq, -, hq10⟩ := others.exists_weighted
  have hweighted := weighted_mono h
  rw [hp, hq, le_finite_iff] at hweighted
  obtain ⟨htenths0, htenths⟩ := tenths_mono hp0 hweighted hq10
  rw [overall, overall, hp, hq]
  -- what remains is one rounded division of the tenths
  have hcast : (0 : Rat) ≤ tenths (.finite p) ∧
      (tenths (.finite p) : Rat) ≤ tenths (.finite q) := by
    exact_mod_cast And.intro htenths0 htenths
  refine round_le_round (div_nonneg hcast.1 (Nat.cast_nonneg _)) ?_
  exact div_le_div_of_nonneg_right hcast.2 (Nat.cast_nonneg _)

/-- The overall score lies between those of five ones and of five tens. -/
theorem overall_between (scores : CategoryScores) :
    ∃ q, scores.overall = .finite q ∧ 1 ≤ q ∧ q ≤ 10 := by
  have hones : (uniform lowest).overall = .finite 1 := by decide +kernel
  have htens : (uniform highest).overall = .finite 10 := by decide +kernel
  -- every score lies between one and ten, so the two computed values enclose the overall score
  have hlow := overall_mono scores.lowest_le
  have hhigh := overall_mono scores.le_highest
  rw [hones] at hlow
  rw [htens] at hhigh
  exact isScore_iff.1 (by rw [isScore, minScore, maxScore, hlow, hhigh]; rfl)

end CategoryScores

end ContractAudit
