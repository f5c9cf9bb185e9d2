import ContractAudit.Binary64.Basic
import Mathlib.Data.Int.Log
import Mathlib.Data.Rat.Floor
import Mathlib.Tactic.FieldSimp
import Mathlib.Tactic.Linarith
import Mathlib.Tactic.Positivity
import Mathlib.Tactic.Ring

/-!
# Rounding keeps the order

`Binary64.round` puts a rational number on a grid whose steps grow with the number, and only then
checks the range. Here the grid is related to powers of two, and rounding is shown to be monotone
on the numbers that are not negative, which is where scores and penalties lie.

Two numbers of one binade share their grid, and there the nearest integer decides
(`nearestEven_mono`). Between two binades lies a power of two, a point of both grids, which the
smaller number does not pass on its way up and the larger one not on its way down.

Main results:

* `floorLog2_eq_log`: the exponent that `floorLog2` computes is the binary logarithm, rounded down.
* `rounded_eq_self`: a multiple of a power of two is on the grid, unless the grid is coarser.
* `rounded_mono`: of two numbers, the smaller one lands no higher on the grid.
* `rounded_le_rounded`: a point of the grid stays where it is, or below what is rounded above it.
* `rounded_rounded`: a point of the grid is on the grid around itself.
* `round_of_nonneg`: what the range check does to the point of the grid.
-/

namespace ContractAudit.Binary64

/-! ## Powers of two -/

theorem twoPow_eq_zpow (e : Int) : twoPow e = (2 : Rat) ^ e := by
  rw [twoPow]
  split
  · rename_i h
    obtain ⟨n, rfl⟩ := Int.eq_ofNat_of_zero_le h
    rw [Int.toNat_natCast, Nat.shiftLeft_eq, one_mul, zpow_natCast]
    norm_cast
  · rename_i h
    -- a negative exponent is the reciprocal of the power with the opposite one
    obtain ⟨n, hn⟩ := Int.eq_ofNat_of_zero_le (show 0 ≤ -e by omega)
    rw [hn, Int.toNat_natCast, Nat.shiftLeft_eq, one_mul, show e = -(n : Int) by omega, zpow_neg,
      zpow_natCast]
    norm_cast

theorem twoPow_pos (e : Int) : 0 < twoPow e := by
  rw [twoPow_eq_zpow]
  exact zpow_pos (by norm_num) e

theorem twoPow_add (d e : Int) : twoPow (d + e) = twoPow d * twoPow e := by
  rw [twoPow_eq_zpow, twoPow_eq_zpow, twoPow_eq_zpow, zpow_add₀ (by norm_num)]

theorem twoPow_mono {d e : Int} (h : d ≤ e) : twoPow d ≤ twoPow e := by
  rw [twoPow_eq_zpow, twoPow_eq_zpow]
  exact zpow_le_zpow_right₀ (by norm_num) h

/-- A power of two with an exponent that is not negative is a whole number. -/
theorem twoPow_eq_intCast {e : Int} (h : 0 ≤ e) : ∃ n : Int, twoPow e = n := by
  obtain ⟨n, rfl⟩ := Int.eq_ofNat_of_zero_le h
  refine ⟨2 ^ n, ?_⟩
  rw [twoPow_eq_zpow, zpow_natCast]
  norm_cast

/-! ## The binary logarithm -/

theorem log2_pred_add_one {n : Nat} (h : 2 ≤ n) : (n - 1).log2 + 1 = Nat.clog 2 n := by
  have hlog : (n - 1) ≠ 0 := by omega
  have hlow : 2 ^ (n - 1).log2 ≤ n - 1 := Nat.log2_self_le hlog
  have hhigh : n - 1 < 2 ^ ((n - 1).log2 + 1) := Nat.lt_log2_self
  -- both sides are the least exponent whose power reaches `n`
  apply le_antisymm
  · rw [Nat.succ_le_iff, Nat.lt_clog_iff_pow_lt (by norm_num)]
    omega
  · rw [Nat.clog_le_iff_le_pow (by norm_num)]
    omega

theorem floorLog2_eq_log {q : Rat} (hq : 0 < q) : floorLog2 q = Int.log 2 q := by
  rw [floorLog2, Int.log]
  split
  · rw [Nat.log2_eq_log_two]
    rfl
  · rename_i h
    -- below one the exponent comes from the reciprocal, which lies above one
    have hinv : 1 < q⁻¹ := (one_lt_inv₀ hq).2 (not_le.1 h)
    have hceil : (2 : Nat) ≤ q⁻¹.ceil.toNat := by
      have : (1 : Int) < q⁻¹.ceil := Rat.lt_ceil_iff.2 (by exact_mod_cast hinv)
      omega
    have hcast : q⁻¹.ceil = ⌈q⁻¹⌉ := Rat.ceil_eq_neg_floor_neg _
    rw [log2_pred_add_one hceil, hcast, Int.ceil_toNat]

theorem floorLog2_mono {p q : Rat} (hp : 0 < p) (h : p ≤ q) : floorLog2 p ≤ floorLog2 q := by
  rw [floorLog2_eq_log hp, floorLog2_eq_log (hp.trans_le h)]
  exact Int.log_mono_right hp h

theorem twoPow_floorLog2_le {q : Rat} (hq : 0 < q) : twoPow (floorLog2 q) ≤ q := by
  rw [twoPow_eq_zpow, floorLog2_eq_log hq]
  exact Int.zpow_log_le_self (by norm_num) hq

theorem lt_twoPow_floorLog2_add_one {q : Rat} (hq : 0 < q) : q < twoPow (floorLog2 q + 1) := by
  rw [twoPow_eq_zpow, floorLog2_eq_log hq]
  exact Int.lt_zpow_succ_log_self (by norm_num) q

theorem floorLog2_lt_of_lt {q : Rat} (hq : 0 < q) {e : Int} (h : q < twoPow e) :
    floorLog2 q < e := by
  by_contra hle
  have hpow : twoPow e ≤ q := (twoPow_mono (by omega)).trans (twoPow_floorLog2_le hq)
  exact absurd h (not_lt.2 hpow)

/-! ## The nearest integer -/

theorem floor_le_nearestEven (q : Rat) : q.floor ≤ nearestEven q := by
  rw [nearestEven]
  split
  · exact le_refl _
  · split
    · omega
    · split <;> omega

theorem nearestEven_le_floor_add_one (q : Rat) : nearestEven q ≤ q.floor + 1 := by
  rw [nearestEven]
  split
  · omega
  · split
    · exact le_refl _
    · split <;> omega

/-- Above a common whole part, the part behind it decides whether the next integer is nearest. -/
theorem nearestEven_le_of_floor_eq {p q : Rat} (h : p ≤ q) (hfloor : p.floor = q.floor) :
    nearestEven p ≤ nearestEven q := by
  have hpart : p - p.floor ≤ q - q.floor := by
    rw [hfloor]
    linarith
  rw [nearestEven, nearestEven, ← hfloor]
  rw [← hfloor] at hpart
  split
  · -- `p` goes down to the common whole part, below which `q` does not go
    split
    · exact le_refl _
    · split
      · omega
      · split <;> omega
  · rename_i hp
    rw [if_neg (fun hq => hp (lt_of_le_of_lt hpart hq))]
    split
    · -- `p` is past the half, so `q` is too
      rename_i hup
      rw [if_pos (lt_of_lt_of_le hup hpart)]
    · -- `p` is half way, where the even neighbour is the same for both
      split
      · split <;> omega
      · split <;> omega

theorem nearestEven_mono {p q : Rat} (h : p ≤ q) : nearestEven p ≤ nearestEven q := by
  rcases (Rat.floor_monotone h).eq_or_lt with hfloor | hfloor
  · exact nearestEven_le_of_floor_eq h hfloor
  · -- the next whole part is as far as `p` gets and the least that `q` keeps
    have hp := nearestEven_le_floor_add_one p
    have hq := floor_le_nearestEven q
    omega

theorem nearestEven_intCast (n : Int) : nearestEven n = n := by
  simp [nearestEven]

theorem nearestEven_zero : nearestEven 0 = 0 := nearestEven_intCast 0

/-! ## The grid -/

/-- The point of the grid around `q` that is nearest to `q`, whatever the range of the format. -/
def rounded (q : Rat) : Rat := nearestEven (q / spacing q) * spacing q

theorem spacing_pos (q : Rat) : 0 < spacing q := twoPow_pos _

theorem rounded_zero : rounded 0 = 0 := by
  rw [rounded, zero_div, nearestEven_zero, Int.cast_zero, zero_mul]

theorem spacingExponent_of_pos {q : Rat} (h : 0 < q) :
    spacingExponent q = max (floorLog2 q - 52) (-1074) := by
  rw [spacingExponent, Rat.abs_of_nonneg h.le]

theorem spacingExponent_mono {p q : Rat} (hp : 0 < p) (h : p ≤ q) :
    spacingExponent p ≤ spacingExponent q := by
  have hlog := floorLog2_mono hp h
  rw [spacingExponent_of_pos hp, spacingExponent_of_pos (hp.trans_le h)]
  omega

/-- A multiple of the spacing around `q` that is not above `q` is not passed by rounding down. -/
theorem le_rounded_of_multiple {q : Rat} {n : Int} (h : n * spacing q ≤ q) :
    n * spacing q ≤ rounded q := by
  have hdiv : (n : Rat) ≤ q / spacing q := (le_div_iff₀ (spacing_pos q)).2 h
  have hnear : n ≤ nearestEven (q / spacing q) := by
    rw [← nearestEven_intCast n]
    exact nearestEven_mono hdiv
  exact mul_le_mul_of_nonneg_right (by exact_mod_cast hnear) (spacing_pos q).le

/-- A multiple of the spacing around `q` that is not below `q` is not passed by rounding up. -/
theorem rounded_le_of_multiple {q : Rat} {n : Int} (h : q ≤ n * spacing q) :
    rounded q ≤ n * spacing q := by
  have hdiv : q / spacing q ≤ (n : Rat) := (div_le_iff₀ (spacing_pos q)).2 h
  have hnear : nearestEven (q / spacing q) ≤ n := by
    rw [← nearestEven_intCast n]
    exact nearestEven_mono hdiv
  exact mul_le_mul_of_nonneg_right (by exact_mod_cast hnear) (spacing_pos q).le

theorem rounded_nonneg {q : Rat} (h : 0 ≤ q) : 0 ≤ rounded q := by
  have hzero := le_rounded_of_multiple (q := q) (n := 0)
  rw [Int.cast_zero, zero_mul] at hzero
  exact hzero h

/-- A power of two at or above the spacing is a multiple of it. -/
theorem twoPow_eq_mul_spacing {q : Rat} {e : Int} (h : spacingExponent q ≤ e) :
    ∃ n : Int, twoPow e = n * spacing q := by
  obtain ⟨n, hn⟩ := twoPow_eq_intCast (show 0 ≤ e - spacingExponent q by omega)
  refine ⟨n, ?_⟩
  rw [spacing, ← hn, ← twoPow_add, sub_add_cancel]

/-- A multiple of a power of two is on the grid, unless the grid is coarser there. -/
theorem rounded_eq_self {q : Rat} {n e : Int} (h : q = n * twoPow e)
    (hexp : spacingExponent q ≤ e) : rounded q = q := by
  obtain ⟨m, hm⟩ := twoPow_eq_mul_spacing hexp
  have hmultiple : q = (n * m : Int) * spacing q := by
    rw [Int.cast_mul, mul_assoc, ← hm]
    exact h
  have hdiv : q / spacing q = (n * m : Int) := (div_eq_iff (spacing_pos q).ne').2 hmultiple
  rw [rounded, hdiv, nearestEven_intCast, ← hmultiple]

/-- Where the grid around `q` is coarser, the power of two that opens the binade of `q` separates the
points of `p` and `q`. -/
theorem rounded_le_rounded_of_spacingExponent_lt {p q : Rat} (hp : 0 < p) (hq : 0 < q)
    (hexp : spacingExponent p < spacingExponent q) : rounded p ≤ rounded q := by
  have hlog : floorLog2 p + 1 ≤ floorLog2 q ∧ spacingExponent q ≤ floorLog2 q ∧
      spacingExponent p ≤ floorLog2 q := by
    rw [spacingExponent_of_pos hp, spacingExponent_of_pos hq] at *
    omega
  obtain ⟨m, hm⟩ := twoPow_eq_mul_spacing (q := p) hlog.2.2
  obtain ⟨n, hn⟩ := twoPow_eq_mul_spacing (q := q) hlog.2.1
  have hbelow : p ≤ twoPow (floorLog2 q) :=
    (lt_twoPow_floorLog2_add_one hp).le.trans (twoPow_mono hlog.1)
  calc rounded p ≤ twoPow (floorLog2 q) := by
        rw [hm]
        exact rounded_le_of_multiple (hm ▸ hbelow)
    _ ≤ rounded q := by
        rw [hn]
        exact le_rounded_of_multiple (hn ▸ twoPow_floorLog2_le hq)

theorem rounded_mono_of_pos {p q : Rat} (hp : 0 < p) (h : p ≤ q) : rounded p ≤ rounded q := by
  rcases (spacingExponent_mono hp h).eq_or_lt with hexp | hexp
  · -- one binade: the same grid on both sides
    have hspacing : spacing p = spacing q := by rw [spacing, spacing, hexp]
    rw [rounded, rounded, hspacing]
    have hdiv : p / spacing q ≤ q / spacing q := by
      exact div_le_div_of_nonneg_right h (spacing_pos q).le
    exact mul_le_mul_of_nonneg_right (by exact_mod_cast nearestEven_mono hdiv) (spacing_pos q).le
  · exact rounded_le_rounded_of_spacingExponent_lt hp (hp.trans_le h) hexp

/-- Of two numbers that are not negative, the smaller one lands no higher on the grid. -/
theorem rounded_mono {p q : Rat} (hp : 0 ≤ p) (h : p ≤ q) : rounded p ≤ rounded q := by
  rcases hp.eq_or_lt with rfl | hpos
  · rw [rounded_zero]
    exact rounded_nonneg h
  · exact rounded_mono_of_pos hpos h

/-- A point of the grid is not passed on the way down from a number above it, although the grid may
be another one there. -/
theorem rounded_le_rounded {p q : Rat} (hp : 0 ≤ p) (h : rounded p ≤ q) :
    rounded p ≤ rounded q := by
  rcases hp.eq_or_lt with rfl | hpos
  · rw [rounded_zero] at h ⊢
    exact rounded_nonneg h
  rcases ((rounded_nonneg hp).trans h).eq_or_lt with rfl | hqpos
  · rw [rounded_zero]
    exact h
  rcases lt_or_ge (spacingExponent p) (spacingExponent q) with hexp | hexp
  · exact rounded_le_rounded_of_spacingExponent_lt hpos hqpos hexp
  · -- a multiple of the spacing around `p` is one of the finer spacing around `q`
    obtain ⟨n, hn⟩ := twoPow_eq_mul_spacing hexp
    have hmultiple : rounded p = (nearestEven (p / spacing p) * n : Int) * spacing q := by
      rw [Int.cast_mul, mul_assoc, ← hn]
      rfl
    rw [hmultiple] at h ⊢
    exact le_rounded_of_multiple h

/-- A point of the grid is on the grid around itself. Only a power of two may have a coarser one
than the number that was rounded to it, and it is a point of that too. -/
theorem rounded_rounded {q : Rat} (hq : 0 ≤ q) : rounded (rounded q) = rounded q := by
  rcases hq.eq_or_lt with rfl | hpos
  · rw [rounded_zero, rounded_zero]
  rcases (rounded_nonneg hq).eq_or_lt with hzero | hrounded
  · rw [← hzero, rounded_zero]
  rcases le_or_gt (spacingExponent (rounded q)) (spacingExponent q) with hexp | hexp
  · exact rounded_eq_self rfl hexp
  · -- the number was rounded up to the next power of two
    have hq := spacingExponent_of_pos hpos
    have hr := spacingExponent_of_pos hrounded
    obtain ⟨n, hn⟩ := twoPow_eq_mul_spacing (le_max_right (floorLog2 q + 1) (spacingExponent q))
    have hle : q ≤ n * spacing q := by
      rw [← hn]
      exact (lt_twoPow_floorLog2_add_one hpos).le.trans (twoPow_mono (le_max_left _ _))
    have hbelow : rounded q ≤ twoPow (floorLog2 (rounded q)) := by
      refine (rounded_le_of_multiple hle).trans ?_
      rw [← hn]
      exact twoPow_mono (by omega)
    have hpower : rounded q = (1 : Int) * twoPow (floorLog2 (rounded q)) := by
      rw [Int.cast_one, one_mul]
      exact le_antisymm hbelow (twoPow_floorLog2_le hrounded)
    exact rounded_eq_self hpower (by omega)

/-! ## The range -/

theorem overflowBound_pos : 0 < overflowBound := twoPow_pos 1024

/-- A number that is not negative rounds to the point of the grid, if that lies in the range. -/
theorem round_of_nonneg {q : Rat} (h : 0 ≤ q) :
    round q = if overflowBound ≤ rounded q then .infinite false else .finite (rounded q) := by
  rw [round]
  split
  · rename_i hq
    rw [hq, rounded_zero, if_neg (not_le.2 overflowBound_pos)]
  · -- without a sign neither the zero nor the infinity below comes up
    have habs : (rounded q).abs = rounded q := Rat.abs_of_nonneg (rounded_nonneg h)
    show (if overflowBound ≤ (rounded q).abs then infinite (decide (q < 0))
      else if rounded q = 0 ∧ q < 0 then negativeZero else finite (rounded q)) = _
    simp only [habs, not_lt.2 h, and_false, decide_false, if_false]

/-- What rounding gave is left as it is when it is rounded again. -/
theorem round_of_round_eq {p q : Rat} (hp : 0 ≤ p) (h : round p = .finite q) :
    0 ≤ q ∧ round q = .finite q := by
  rw [round_of_nonneg hp] at h
  split at h
  · cases h
  · rename_i hrange
    obtain rfl := finite.inj h
    have hnonneg := rounded_nonneg hp
    rw [round_of_nonneg hnonneg, rounded_rounded hp, if_neg hrange]
    exact ⟨hnonneg, rfl⟩

/-- A finite number of the format: a magnitude that rounding leaves as it is, with a sign. -/
def IsFinite (x : Binary64) : Prop :=
  ∃ q, 0 ≤ q ∧ round q = .finite q ∧ (x = .finite q ∨ x = (finite q).neg)

theorem isFinite_of_round_eq {p q : Rat} (hp : 0 ≤ p) (h : round p = .finite q) :
    IsFinite (.finite q) := by
  obtain ⟨hq, hself⟩ := round_of_round_eq hp h
  exact ⟨q, hq, hself, .inl rfl⟩

end ContractAudit.Binary64
