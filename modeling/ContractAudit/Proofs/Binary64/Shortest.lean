import ContractAudit.Binary64.Decimal
import ContractAudit.Proofs.Binary64.Order

/-!
# The shortest decimal rounds to the number

A positive number of the format is its significand times the spacing around it. What rounds to it
lies between two ends (`Within`): half a spacing above, and half a spacing below or, at a power of
two, a quarter. The ends themselves round to an even significand.

The search for the fewest digits looks at points of a decimal grid. There the ends are counted in
whole numbers (`Placement.mem_iff`), so that every point that the search takes rounds to the number.
The search does not fail: with seventeen digits the grid is finer than the spacing, and the point
next to the number is never as far off as an end (`exists_within_grid`).

Main result: `round_shortest`.
-/

namespace ContractAudit.Binary64

/-! ## Significands -/

/-- The number is `k` times the spacing around it, in the range of the format. Above the least
exponent the significand takes all 53 bits. -/
structure HasSignificand (q : Rat) (k : Nat) : Prop where
  eq : q = k * spacing q
  pos : 0 < k
  lt : k < 2 ^ 53
  full : -1074 < spacingExponent q → 2 ^ 52 ≤ k
  inRange : q < overflowBound

theorem least_le_spacingExponent (q : Rat) : -1074 ≤ spacingExponent q := by
  unfold spacingExponent
  omega

theorem le_floorLog2_of_le {q : Rat} (hq : 0 < q) {e : Int} (h : twoPow e ≤ q) :
    e ≤ floorLog2 q := by
  by_contra hlt
  have hpow := (lt_twoPow_floorLog2_add_one hq).trans_le (twoPow_mono (show _ ≤ e by omega))
  exact absurd h (not_le.2 hpow)

theorem twoPow_add_natCast (e : Int) (n : Nat) : twoPow (e + n) = 2 ^ n * twoPow e := by
  rw [twoPow_add, twoPow_eq_zpow n, zpow_natCast, mul_comm]

/-- A positive number that rounding leaves as it is has a significand. -/
theorem exists_hasSignificand {q : Rat} (hq : 0 < q) (h : round q = .finite q) :
    ∃ k, HasSignificand q k := by
  rw [round_of_nonneg hq.le] at h
  split at h
  · cases h
  rename_i hrange
  have hself : rounded q = q := finite.inj h
  have hspacing := spacing_pos q
  -- the significand is a natural number, since neither the number nor the spacing is negative
  have hnear : 0 ≤ nearestEven (q / spacing q) := by
    rw [← nearestEven_zero]
    exact nearestEven_mono (div_nonneg hq.le hspacing.le)
  obtain ⟨k, hk⟩ := Int.eq_ofNat_of_zero_le hnear
  have heq : q = k * spacing q := by
    have hcast : (nearestEven (q / spacing q) : Rat) = k := by rw [hk, Int.cast_natCast]
    rw [← hcast]
    exact hself.symm
  have hexp := spacingExponent_of_pos hq
  have hhigh : q < 2 ^ 53 * spacing q := by
    have hpow : q < twoPow (spacingExponent q + (53 : Nat)) :=
      (lt_twoPow_floorLog2_add_one hq).trans_le (twoPow_mono (by omega))
    rwa [twoPow_add_natCast] at hpow
  refine ⟨k, heq, ?_, ?_, fun hleast => ?_, hself ▸ not_le.1 hrange⟩
  · rw [Nat.pos_iff_ne_zero]
    rintro rfl
    rw [Nat.cast_zero, zero_mul] at heq
    exact hq.ne' heq
  · have hlt : (k : Rat) < 2 ^ 53 :=
      lt_of_mul_lt_mul_right (heq.symm.trans_lt hhigh) hspacing.le
    exact_mod_cast hlt
  · have hlow : 2 ^ 52 * spacing q ≤ q := by
      have hpow : twoPow (spacingExponent q + (52 : Nat)) ≤ q := by
        refine le_trans (le_of_eq (congrArg twoPow ?_)) (twoPow_floorLog2_le hq)
        omega
      rwa [twoPow_add_natCast] at hpow
    have hle : (2 : Rat) ^ 52 ≤ k := le_of_mul_le_mul_right (hlow.trans_eq heq) hspacing
    exact_mod_cast hle

/-- The spacing around a number from the binade that it lies in. -/
theorem spacingExponent_eq_of_mem {x : Rat} {e : Int} (hx : 0 < x) (hleast : -1074 ≤ e)
    (hlow : e = -1074 ∨ 2 ^ 52 * twoPow e ≤ x) (hhigh : x < 2 ^ 53 * twoPow e) :
    spacingExponent x = e := by
  rw [← twoPow_add_natCast e 53] at hhigh
  have hbelow := floorLog2_lt_of_lt hx hhigh
  rw [spacingExponent_of_pos hx]
  rcases hlow with rfl | hlow
  · omega
  · rw [← twoPow_add_natCast e 52] at hlow
    have habove := le_floorLog2_of_le hx hlow
    omega

/-! ## What rounds to a number -/

/-- The nearest integer to what is less than one half away from it, or exactly one half and the
integer is even. -/
theorem nearestEven_eq_of_near {y : Rat} {n : Int} (hlow : n - 1 / 2 ≤ y) (hhigh : y ≤ n + 1 / 2)
    (hodd : n % 2 = 1 → n - 1 / 2 < y ∧ y < n + 1 / 2) : nearestEven y = n := by
  have hfloor : (y.floor : Rat) ≤ y := Rat.floor_le y
  have hsucc : y < y.floor + 1 := by exact_mod_cast Rat.lt_floor_add_one y
  -- the integer is one of the two around `y`
  have hcases : y.floor = n ∨ y.floor = n - 1 := by
    have hbelow : (y.floor : Rat) < (n + 1 : Int) := by push_cast; linarith
    have habove : ((n - 1 : Int) : Rat) < (y.floor + 1 : Int) := by push_cast; linarith
    have hbelow' : y.floor < n + 1 := by exact_mod_cast hbelow
    have habove' : n - 1 < y.floor + 1 := by exact_mod_cast habove
    omega
  rw [nearestEven]
  rcases hcases with h | h
  · rw [h]
    split
    · rfl
    · rename_i hpart
      have htie : y = n + 1 / 2 := by linarith
      rw [if_neg (by rw [htie]; norm_num), if_pos]
      by_contra hne
      exact absurd htie (hodd (by omega)).2.ne
  · rw [h]
    push_cast
    rw [if_neg (by linarith)]
    split
    · omega
    · rename_i hpart
      have htie : y = n - 1 / 2 := by linarith
      rw [if_neg]
      · omega
      · intro heven
        exact absurd htie (hodd (by omega)).1.ne'

/-- How far a number with the significand `k` reaches down, in quarters of its spacing: half of that
at a power of two, below which the numbers lie closer. -/
def reach (e : Int) (k : Nat) : Nat :=
  if k = 2 ^ 52 ∧ -1074 < e then 1 else 2

theorem reach_cases (e : Int) (k : Nat) :
    (reach e k = 1 ∧ k = 2 ^ 52 ∧ -1074 < e) ∨ (reach e k = 2 ∧ (k ≠ 2 ^ 52 ∨ e ≤ -1074)) := by
  unfold reach
  split
  · rename_i h
    exact .inl ⟨rfl, h⟩
  · rename_i h
    exact .inr ⟨rfl, by omega⟩

/-- What lies between the ends around the number with the significand `k` and the spacing
`twoPow e`. -/
structure Within (e : Int) (k : Nat) (x : Rat) : Prop where
  low : (4 * k - reach e k) * (twoPow e / 4) ≤ x
  high : x ≤ (4 * k + 2) * (twoPow e / 4)
  odd : k % 2 = 1 → (4 * k - reach e k) * (twoPow e / 4) < x ∧ x < (4 * k + 2) * (twoPow e / 4)

/-- On the grid of the number, what lies between the ends is nearest to the significand. -/
theorem rounded_of_spacingExponent_eq {q x : Rat} {k : Nat} (hq : HasSignificand q k)
    (hx : Within (spacingExponent q) k x) (hexp : spacingExponent x = spacingExponent q)
    (hreach : reach (spacingExponent q) k = 2 ∨ q ≤ x) : rounded x = q := by
  have hspacing : spacing x = spacing q := congrArg twoPow hexp
  have hpos := spacing_pos q
  obtain ⟨hlow, hhigh, hodd⟩ := hx
  have heq := hq.eq
  rw [← spacing] at hlow hhigh hodd
  have hnear : nearestEven (x / spacing q) = k := by
    refine nearestEven_eq_of_near ?_ ?_ fun hk => ?_
    · rw [le_div_iff₀ hpos, Int.cast_natCast]
      rcases hreach with hreach | hle
      · rw [hreach] at hlow
        push_cast at hlow
        linarith
      · linarith
    · rw [div_le_iff₀ hpos, Int.cast_natCast]
      linarith
    · obtain ⟨hlow, hhigh⟩ := hodd (by omega)
      rw [lt_div_iff₀ hpos, div_lt_iff₀ hpos, Int.cast_natCast]
      constructor
      · rcases hreach with hreach | hle
        · rw [hreach] at hlow
          push_cast at hlow
          linarith
        · linarith
      · linarith
  rw [rounded, hspacing, hnear, Int.cast_natCast, ← heq]

/-- Below a power of two the spacing is half as wide, and what lies above the lower end is nearest
to twice the significand. -/
theorem rounded_of_lt_power {q x : Rat} {k : Nat} (hq : HasSignificand q k)
    (hx : Within (spacingExponent q) k x) (hk : k = 2 ^ 52) (hleast : -1074 < spacingExponent q)
    (hlt : x < q) : rounded x = q := by
  have hreach : reach (spacingExponent q) k = 1 := if_pos ⟨hk, hleast⟩
  have hpos := spacing_pos q
  have heq := hq.eq
  have hlow := hx.low
  rw [hreach, ← spacing, hk] at hlow
  rw [hk] at heq
  push_cast at heq hlow
  have hhalf : twoPow (spacingExponent q - 1) = spacing q / 2 := by
    rw [spacing, twoPow_eq_zpow, twoPow_eq_zpow, zpow_sub_one₀ (by norm_num)]
    rfl
  have hexp : spacingExponent x = spacingExponent q - 1 := by
    refine spacingExponent_eq_of_mem (by linarith) (by omega) (.inr ?_) ?_ <;>
      rw [hhalf] <;> linarith
  have hnear : nearestEven (x / (spacing q / 2)) = 2 ^ 53 := by
    refine nearestEven_eq_of_near ?_ ?_ (fun hodd => absurd hodd (by norm_num)) <;> push_cast
    · rw [le_div_iff₀ (by linarith)]
      linarith
    · rw [div_le_iff₀ (by linarith)]
      linarith
  rw [rounded, spacing, hexp, hhalf, hnear]
  push_cast
  linarith

/-- What lies between the ends around a number rounds to it. -/
theorem round_of_within {q x : Rat} {k : Nat} (hq : HasSignificand q k)
    (hx : Within (spacingExponent q) k x) : round x = .finite q := by
  have hpos := spacing_pos q
  have heq := hq.eq
  have hk : (1 : Rat) ≤ k := by exact_mod_cast hq.pos
  have hk53 : (k : Rat) + 1 ≤ 2 ^ 53 := by exact_mod_cast hq.lt
  have hlow := hx.low
  have hhigh := hx.high
  rw [← spacing] at hlow hhigh
  have hx0 : 0 < x := by
    have hreach : (reach (spacingExponent q) k : Rat) ≤ 2 := by
      rcases reach_cases (spacingExponent q) k with ⟨h, -⟩ | ⟨h, -⟩ <;> rw [h] <;> norm_num
    have hle : (2 : Rat) * (spacing q / 4) ≤
        (4 * k - reach (spacingExponent q) k) * (spacing q / 4) :=
      mul_le_mul_of_nonneg_right (by linarith) (by linarith)
    linarith
  have hbelow : x < 2 ^ 53 * twoPow (spacingExponent q) := by
    have hle := mul_le_mul_of_nonneg_right hk53 hpos.le
    rw [← spacing]
    linarith
  have hrounded : rounded x = q := by
    rcases lt_or_ge x q with hlt | hge
    · rcases reach_cases (spacingExponent q) k with ⟨-, hk52, hleast⟩ | ⟨hreach, hcase⟩
      · exact rounded_of_lt_power hq hx hk52 hleast hlt
      · -- the significand is not the least of its binade, so half a spacing less stays in it
        refine rounded_of_spacingExponent_eq hq hx ?_ (.inl hreach)
        refine spacingExponent_eq_of_mem hx0 (least_le_spacingExponent q) ?_ hbelow
        rcases (least_le_spacingExponent q).eq_or_lt with hleast | hleast
        · exact .inl hleast.symm
        · have hfull := hq.full hleast
          have hmore : (2 : Rat) ^ 52 + 1 ≤ k := by
            have : 2 ^ 52 + 1 ≤ k := by omega
            exact_mod_cast this
          have hle := mul_le_mul_of_nonneg_right hmore hpos.le
          rw [hreach] at hlow
          push_cast at hlow
          right
          rw [← spacing]
          linarith
    · refine rounded_of_spacingExponent_eq hq hx ?_ (.inr hge)
      refine spacingExponent_eq_of_mem hx0 (least_le_spacingExponent q) ?_ hbelow
      rcases (least_le_spacingExponent q).eq_or_lt with hleast | hleast
      · exact .inl hleast.symm
      · have hfull : (2 : Rat) ^ 52 ≤ k := by exact_mod_cast hq.full hleast
        have hle := mul_le_mul_of_nonneg_right hfull hpos.le
        right
        rw [← spacing]
        linarith
  rw [round_of_nonneg hx0.le, hrounded, if_neg (not_le.2 hq.inRange)]

/-! ## The decimal grid -/

theorem tenPow_eq_zpow (e : Int) : tenPow e = (10 : Rat) ^ e := by
  rw [tenPow]
  split
  · rename_i h
    obtain ⟨n, rfl⟩ := Int.eq_ofNat_of_zero_le h
    rw [Int.toNat_natCast, zpow_natCast]
    exact_mod_cast rfl
  · rename_i h
    obtain ⟨n, hn⟩ := Int.eq_ofNat_of_zero_le (show 0 ≤ -e by omega)
    rw [hn, Int.toNat_natCast, show e = -(n : Int) by omega, zpow_neg, zpow_natCast]
    exact_mod_cast rfl

theorem tenPow_pos (e : Int) : 0 < tenPow e := by
  rw [tenPow_eq_zpow]
  exact zpow_pos (by norm_num) e

theorem tenPow_add (d e : Int) : tenPow (d + e) = tenPow d * tenPow e := by
  rw [tenPow_eq_zpow, tenPow_eq_zpow, tenPow_eq_zpow, zpow_add₀ (by norm_num)]

theorem tenPow_natCast (n : Nat) : tenPow n = 10 ^ n := by
  rw [tenPow_eq_zpow, zpow_natCast]

theorem zpow_mul_pow_toNat_neg {b : Rat} (hb : b ≠ 0) (e : Int) :
    b ^ e * b ^ (-e).toNat = b ^ e.toNat := by
  rw [← zpow_natCast b (-e).toNat, ← zpow_add₀ hb, ← zpow_natCast b e.toNat]
  congr 1
  omega

/-- A quarter of the spacing `twoPow e` is the fraction `up e last / down e last` of a step of the
grid of the multiples of `tenPow last`. -/
def up (e last : Int) : Nat := 2 ^ (e - 2).toNat * 10 ^ (-last).toNat

@[inherit_doc up]
def down (e last : Int) : Nat := 2 ^ (2 - e).toNat * 10 ^ last.toNat

theorem down_pos (e last : Int) : 0 < down e last := by
  unfold down
  positivity

theorem up_pos (e last : Int) : 0 < up e last := by
  unfold up
  positivity

theorem up_mul_tenPow (e last : Int) :
    up e last * tenPow last = down e last * (twoPow e / 4) := by
  have htwo : twoPow e / 4 * 2 ^ (2 - e).toNat = 2 ^ (e - 2).toNat := by
    have hquarter : twoPow e / 4 = (2 : Rat) ^ (e - 2) := by
      rw [twoPow_eq_zpow, zpow_sub₀ (by norm_num)]
      norm_num
    have hneg := zpow_mul_pow_toNat_neg (b := 2) (by norm_num) (e - 2)
    rwa [neg_sub, ← hquarter] at hneg
  have hten : tenPow last * 10 ^ (-last).toNat = 10 ^ last.toNat := by
    rw [tenPow_eq_zpow, zpow_mul_pow_toNat_neg (by norm_num)]
  unfold up down
  push_cast
  rw [← htwo, ← hten]
  ring

/-- Points of the grid and quarters of the spacing compare by their counts. -/
theorem quarters_le_points_iff (e last : Int) (c n : Nat) :
    ((c : Rat) * (twoPow e / 4) ≤ n * tenPow last ↔ c * up e last ≤ n * down e last) ∧
      (n * tenPow last ≤ (c : Rat) * (twoPow e / 4) ↔ n * down e last ≤ c * up e last) := by
  have hdown : (0 : Rat) < down e last := by exact_mod_cast down_pos e last
  -- the unit of which a quarter is `up` and a step of the grid is `down`
  have hunit : 0 < tenPow last / down e last := div_pos (tenPow_pos last) hdown
  have hquarter : twoPow e / 4 = up e last * (tenPow last / down e last) := by
    rw [← mul_div_assoc, up_mul_tenPow, mul_div_cancel_left₀ _ hdown.ne']
  have hstep : tenPow last = down e last * (tenPow last / down e last) :=
    (mul_div_cancel₀ _ hdown.ne').symm
  have hc : (c : Rat) * (twoPow e / 4) = (c * up e last : Nat) * (tenPow last / down e last) := by
    rw [hquarter]
    push_cast
    ring
  have hn : (n : Rat) * tenPow last = (n * down e last : Nat) * (tenPow last / down e last) := by
    rw [Nat.cast_mul, mul_assoc, ← hstep]
  rw [hc, hn, mul_le_mul_iff_of_pos_right hunit, mul_le_mul_iff_of_pos_right hunit, Nat.cast_le,
    Nat.cast_le]
  exact ⟨Iff.rfl, Iff.rfl⟩

namespace Placement

variable {q : Rat} {k : Nat}

theorem significand_eq (hq : HasSignificand q k) :
    (q * twoPow (-spacingExponent q)).floor.toNat = k := by
  have hone : spacing q * twoPow (-spacingExponent q) = 1 := by
    rw [spacing, ← twoPow_add, add_neg_cancel]
    rfl
  have hprod : q * twoPow (-spacingExponent q) = (k : Int) := by
    calc q * twoPow (-spacingExponent q)
        = k * spacing q * twoPow (-spacingExponent q) := by rw [← hq.eq]
      _ = (k : Int) := by rw [mul_assoc, hone, mul_one, Int.cast_natCast]
  rw [hprod, Rat.floor_intCast, Int.toNat_natCast]

/-- The exponent of the last of the most digits. -/
def lastExponent (q : Rat) : Int := floorLog10 q - 16

/-- The placement in terms of the significand. -/
theorem of_eq (hq : HasSignificand q k) :
    let e := spacingExponent q
    let up := up e (lastExponent q)
    let down := down e (lastExponent q)
    Placement.of q = {
      last := lastExponent q
      low := if k % 2 = 0 then ((4 * k - reach e k) * up + down - 1) / down
        else (4 * k - reach e k) * up / down + 1
      high := if k % 2 = 0 then (4 * k + 2) * up / down else ((4 * k + 2) * up - 1) / down
      doubleFloor := 8 * k * up / down
      doubleCeil := (8 * k * up + down - 1) / down } := by
  unfold Placement.of
  simp only [significand_eq hq]
  rfl

/-- The points between the ends, by their counts. -/
theorem within_iff (hk : 0 < k) (e last : Int) (n : Nat) :
    Within e k (n * tenPow last) ↔
      (4 * k - reach e k) * up e last ≤ n * down e last ∧
      n * down e last ≤ (4 * k + 2) * up e last ∧
      (k % 2 = 1 → (4 * k - reach e k) * up e last < n * down e last ∧
        n * down e last < (4 * k + 2) * up e last) := by
  have hlow : ((4 * k - reach e k : Nat) : Rat) = 4 * k - reach e k := by
    have hle : reach e k ≤ 4 * k := by
      rcases reach_cases e k with ⟨h, -⟩ | ⟨h, -⟩ <;> omega
    rw [Nat.cast_sub hle, Nat.cast_mul, Nat.cast_ofNat]
  have hhigh : ((4 * k + 2 : Nat) : Rat) = 4 * k + 2 := by push_cast; rfl
  obtain ⟨hlowLe, hlowGe⟩ := quarters_le_points_iff e last (4 * k - reach e k) n
  obtain ⟨hhighLe, hhighGe⟩ := quarters_le_points_iff e last (4 * k + 2) n
  rw [hlow] at hlowLe hlowGe
  rw [hhigh] at hhighLe hhighGe
  -- what is strictly between is what is not beyond the end
  rw [← hlowLe, ← hhighGe, ← not_le, ← not_le, ← hlowGe, ← hhighLe, not_le, not_le]
  exact ⟨fun h => ⟨h.low, h.high, h.odd⟩, fun h => ⟨h.1, h.2.1, h.2.2⟩⟩

/-- The first and the last point are those between the ends. -/
theorem mem_iff (hq : HasSignificand q k) (n : Nat) :
    (Placement.of q).low ≤ n ∧ n ≤ (Placement.of q).high ↔
      Within (spacingExponent q) k (n * tenPow (lastExponent q)) := by
  rw [within_iff hq.pos, of_eq hq]
  dsimp only
  have hstep := down_pos (spacingExponent q) (lastExponent q)
  have hup := up_pos (spacingExponent q) (lastExponent q)
  have hhigh : 0 < (4 * k + 2) * up (spacingExponent q) (lastExponent q) := by positivity
  generalize (4 * k - reach (spacingExponent q) k) * up (spacingExponent q) (lastExponent q) = low
  generalize (4 * k + 2) * up (spacingExponent q) (lastExponent q) = high at hhigh ⊢
  generalize down (spacingExponent q) (lastExponent q) = step at hstep ⊢
  rcases Nat.mod_two_eq_zero_or_one k with hk | hk
  · simp only [hk, if_true, zero_ne_one, false_imp_iff, and_true]
    rw [Nat.div_le_iff_le_mul_add_pred hstep, Nat.le_div_iff_mul_le hstep, Nat.mul_comm step n]
    omega
  · simp only [hk, one_ne_zero, if_false, true_imp_iff]
    rw [Nat.succ_le_iff, Nat.div_lt_iff_lt_mul hstep, Nat.le_div_iff_mul_le hstep]
    omega

end Placement

/-! ## The decimal logarithm -/

theorem tenPow_le_twoPow_natCast {n : Nat} (h : n < 1024) :
    tenPow ((n : Int) * 30103 / 100000 - 1) ≤ twoPow n := by
  have hpowers : ∀ n < 1024, 10 ^ (n * 30103 / 100000) ≤ 10 * 2 ^ n := by decide +kernel
  have hle : (10 : Rat) ^ (n * 30103 / 100000) ≤ 10 * 2 ^ n := by exact_mod_cast hpowers n h
  have hestimate : (n : Int) * 30103 / 100000 = (n * 30103 / 100000 : Nat) := by omega
  rw [hestimate, sub_eq_add_neg, tenPow_add, tenPow_natCast, tenPow_eq_zpow (-1), twoPow_eq_zpow,
    zpow_natCast]
  norm_num
  linarith

theorem tenPow_le_twoPow_neg {n : Nat} (h : n < 1075) :
    tenPow (-(n : Int) * 30103 / 100000 - 1) ≤ twoPow (-n) := by
  have hpowers : ∀ n < 1075, 2 ^ n ≤ 10 ^ ((n * 30103 + 199999) / 100000) := by decide +kernel
  have hle : (2 : Rat) ^ n ≤ 10 ^ ((n * 30103 + 199999) / 100000) := by
    exact_mod_cast hpowers n h
  have hestimate : -(n : Int) * 30103 / 100000 - 1 = -((n * 30103 + 199999) / 100000 : Nat) := by
    omega
  rw [hestimate, tenPow_eq_zpow, twoPow_eq_zpow, zpow_neg, zpow_neg, zpow_natCast, zpow_natCast]
  exact inv_anti₀ (by positivity) hle

/-- The estimate of the decimal logarithm is not too high by more than one. -/
theorem tenPow_estimate_le {m : Int} (hlow : -1074 ≤ m) (hhigh : m < 1024) :
    tenPow (m * 30103 / 100000 - 1) ≤ twoPow m := by
  rcases Int.le_total 0 m with h | h
  · obtain ⟨n, rfl⟩ := Int.eq_ofNat_of_zero_le h
    exact tenPow_le_twoPow_natCast (by omega)
  · obtain ⟨n, hn⟩ := Int.eq_ofNat_of_zero_le (show 0 ≤ -m by omega)
    obtain rfl : m = -n := by omega
    exact tenPow_le_twoPow_neg (by omega)

/-- In the range of the format the power of ten is not above the number. -/
theorem tenPow_floorLog10_le {q : Rat} (hq : 0 < q) (hlow : -1074 ≤ floorLog2 q)
    (hhigh : floorLog2 q < 1024) : tenPow (floorLog10 q) ≤ q := by
  have hbelow : tenPow (floorLog2 q * 30103 / 100000 - 1) ≤ q :=
    (tenPow_estimate_le hlow hhigh).trans (twoPow_floorLog2_le hq)
  unfold floorLog10
  dsimp only
  split
  · assumption
  · split
    · exact hbelow
    · exact not_lt.1 ‹_›

theorem HasSignificand.floorLog2_mem {q : Rat} {k : Nat} (hq : HasSignificand q k) :
    -1074 ≤ floorLog2 q ∧ floorLog2 q < 1024 := by
  have hspacing := spacing_pos q
  have hk : (1 : Rat) ≤ k := by exact_mod_cast hq.pos
  have hle : spacing q ≤ q := by
    have hmul := mul_le_mul_of_nonneg_right hk hspacing.le
    rw [one_mul] at hmul
    exact hmul.trans_eq hq.eq.symm
  have hpos : 0 < q := hspacing.trans_le hle
  have hleast : twoPow (-1074) ≤ spacing q := twoPow_mono (least_le_spacingExponent q)
  exact ⟨le_floorLog2_of_le hpos (hleast.trans hle), floorLog2_lt_of_lt hpos hq.inRange⟩

/-! ## The fewest digits -/

namespace Placement

variable {q : Rat} {k : Nat}

/-- The last of the most digits counts less than the distance to either end, twice. -/
theorem tenPow_lastExponent_lt (hq : HasSignificand q k) :
    tenPow (lastExponent q) <
      2 * reach (spacingExponent q) k * (twoPow (spacingExponent q) / 4) := by
  have hspacing := spacing_pos q
  obtain ⟨hlow, hhigh⟩ := hq.floorLog2_mem
  have hpos : 0 < q := by
    have hk : (0 : Rat) < k := by exact_mod_cast hq.pos
    exact (mul_pos hk hspacing).trans_eq hq.eq.symm
  -- seventeen digits of the number are the digits of a number of at least 10 ^ 16
  have hgrid : 10 ^ 16 * tenPow (lastExponent q) ≤ k * spacing q := by
    rw [← tenPow_natCast, ← tenPow_add, ← hq.eq]
    exact (le_of_eq (congrArg tenPow (by unfold lastExponent; omega))).trans
      (tenPow_floorLog10_le hpos hlow hhigh)
  have hk : (k : Rat) * spacing q ≤ 2 ^ 53 * spacing q :=
    mul_le_mul_of_nonneg_right (by exact_mod_cast hq.lt.le) hspacing.le
  rw [← spacing]
  rcases reach_cases (spacingExponent q) k with ⟨hreach, rfl, -⟩ | ⟨hreach, -⟩
  · rw [hreach]
    push_cast at hgrid ⊢
    linarith
  · rw [hreach]
    push_cast
    linarith

theorem mem_neighbours_iff {place : Placement} {block n : Nat} :
    n ∈ place.neighbours block ↔
      n = place.doubleFloor / 2 / block * block ∨
        n = place.doubleFloor / 2 / block * block + block := by
  unfold neighbours
  dsimp only
  split
  · simp
  · simp [or_comm]

/-- What is no more than half a point of the grid off the number is between the ends. -/
theorem within_of_near (hq : HasSignificand q k) {x : Rat}
    (hlow : 4 * k * (twoPow (spacingExponent q) / 4) ≤ x + tenPow (lastExponent q) / 2)
    (hhigh : x ≤ 4 * k * (twoPow (spacingExponent q) / 4) + tenPow (lastExponent q) / 2) :
    Within (spacingExponent q) k x := by
  have hgrid := tenPow_lastExponent_lt hq
  have hquarter : 0 < twoPow (spacingExponent q) / 4 := by
    have := twoPow_pos (spacingExponent q)
    linarith
  have hreach : (reach (spacingExponent q) k : Rat) * (twoPow (spacingExponent q) / 4) ≤
      2 * (twoPow (spacingExponent q) / 4) := by
    refine mul_le_mul_of_nonneg_right ?_ hquarter.le
    rcases reach_cases (spacingExponent q) k with ⟨h, -⟩ | ⟨h, -⟩ <;> rw [h] <;> norm_num
  -- even the ends are not reached
  have hbetween : (4 * k - reach (spacingExponent q) k) * (twoPow (spacingExponent q) / 4) < x ∧
      x < (4 * k + 2) * (twoPow (spacingExponent q) / 4) := by
    constructor <;> linarith
  exact ⟨hbetween.1.le, hbetween.2.le, fun _ => hbetween⟩

/-- The point of the grid next to the number is between the ends. -/
theorem exists_within_grid (hq : HasSignificand q k) :
    ∃ n ∈ (Placement.of q).neighbours 1,
      Within (spacingExponent q) k (n * tenPow (lastExponent q)) := by
  obtain ⟨below, hbelow⟩ : ∃ below, (Placement.of q).doubleFloor / 2 / 1 * 1 = below := ⟨_, rfl⟩
  have hfloor : below = 4 * k * up (spacingExponent q) (lastExponent q) /
      down (spacingExponent q) (lastExponent q) := by
    rw [← hbelow, of_eq hq, Nat.div_one, Nat.mul_one, Nat.div_div_eq_div_mul, Nat.mul_comm _ 2,
      ← Nat.mul_div_mul_left (4 * k * _) _ (show 0 < 2 by decide)]
    congr 1
    ring
  have hdown := down_pos (spacingExponent q) (lastExponent q)
  have hlow : (below : Rat) * tenPow (lastExponent q) ≤
      4 * k * (twoPow (spacingExponent q) / 4) := by
    have hle := (quarters_le_points_iff (spacingExponent q) (lastExponent q) (4 * k) below).2.2
      (hfloor ▸ Nat.div_mul_le_self _ _)
    push_cast at hle
    exact hle
  have hhigh : 4 * k * (twoPow (spacingExponent q) / 4) ≤
      ((below + 1 : Nat) : Rat) * tenPow (lastExponent q) := by
    have hle := (quarters_le_points_iff (spacingExponent q) (lastExponent q) (4 * k)
      (below + 1)).1.2 (hfloor ▸ ((Nat.div_lt_iff_lt_mul hdown).1 (Nat.lt_succ_self _)).le)
    push_cast at hle ⊢
    exact hle
  have hstep := tenPow_pos (lastExponent q)
  push_cast at hhigh
  -- one of the two points around the number is no more than half a point off
  rcases le_or_gt (4 * k * (twoPow (spacingExponent q) / 4))
    (below * tenPow (lastExponent q) + tenPow (lastExponent q) / 2) with hnear | hnear
  · refine ⟨below, mem_neighbours_iff.2 (.inl hbelow.symm), within_of_near hq hnear ?_⟩
    linarith
  · refine ⟨below + 1, mem_neighbours_iff.2 (.inr (by rw [hbelow])), within_of_near hq ?_ ?_⟩ <;>
      push_cast <;> linarith

/-- What the search takes rounds to the number. -/
theorem round_of_pick? (hq : HasSignificand q k) {zeros m : Nat} {e : Int}
    (h : (Placement.of q).pick? zeros = some (m, e)) : round (m * tenPow e) = .finite q := by
  unfold pick? at h
  obtain ⟨n, hfind, hn⟩ := Option.map_eq_some_iff.1 h
  obtain ⟨rfl, rfl⟩ := Prod.mk.inj hn
  have hwithin : Within (spacingExponent q) k (n * tenPow (lastExponent q)) := by
    have hpasses := List.find?_some hfind
    exact (mem_iff hq n).1 (of_decide_eq_true hpasses)
  -- the digits that are left out are zeros
  have hdvd : Nat.pow 10 zeros ∣ n := by
    rcases mem_neighbours_iff.1 (List.mem_of_find?_eq_some hfind) with rfl | rfl
    · exact Nat.dvd_mul_left _ _
    · exact Nat.dvd_add (Nat.dvd_mul_left _ _) (Nat.dvd_refl _)
  have hvalue : (n / Nat.pow 10 zeros : Nat) * tenPow ((Placement.of q).last + zeros) =
      n * tenPow (lastExponent q) := by
    obtain ⟨c, rfl⟩ := hdvd
    have hten : (10 : Nat).pow zeros = 10 ^ zeros := rfl
    rw [hten, Nat.mul_div_cancel_left _ (by positivity), of_eq hq, tenPow_add, tenPow_natCast]
    push_cast
    ring
  rw [hvalue]
  exact round_of_within hq hwithin

end Placement

/-- **Shortest decimals.** The decimal that is written for a positive number of the format rounds to
this number. -/
theorem round_shortest {q : Rat} (hq : 0 < q) (h : round q = .finite q) :
    round ((shortest q).1 * tenPow (shortest q).2) = .finite q := by
  obtain ⟨k, hk⟩ := exists_hasSignificand hq h
  obtain ⟨n, hn, hwithin⟩ := Placement.exists_within_grid hk
  have hpick : ((Placement.of q).pick? 0).isSome = true := by
    unfold Placement.pick?
    rw [Option.isSome_map, List.find?_isSome]
    exact ⟨n, hn, decide_eq_true ((Placement.mem_iff hk n).2 hwithin)⟩
  have hsome : ((List.range maxDigits).reverse.findSome? (Placement.of q).pick?).isSome = true := by
    rw [List.findSome?_isSome_iff]
    exact ⟨0, by decide, hpick⟩
  obtain ⟨⟨m, e⟩, hfound⟩ := Option.isSome_iff_exists.1 hsome
  have hshortest : shortest q = (m, e) := by
    unfold shortest
    rw [hfound, Option.getD_some]
  obtain ⟨zeros, -, hzeros⟩ := List.exists_of_findSome?_eq_some hfound
  rw [hshortest]
  exact Placement.round_of_pick? hk hzeros

end ContractAudit.Binary64
