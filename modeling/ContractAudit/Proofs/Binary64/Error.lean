import ContractAudit.Proofs.Binary64.Order
import Mathlib.Algebra.Order.BigOperators.Group.List

/-!
# How far a computed number is from the exact one

Scoring computes with numbers below 128 that are not negative. There the numbers of the format are
no more than `step` apart, so one rounding moves a number by at most as much, and the errors of the
operands of a sum or a product carry over to the result: `Near ε x q` says that the computed `x` is
within `ε` of the exact `q`, and each operation has a law for it.

Main results:

* `round_near`: one rounding.
* `Near.add`, `Near.mul`: one operation on numbers that are near already.
* `Near.foldl_add`: a sum over a list, term by term.
-/

namespace ContractAudit.Binary64

/-- The distance between the numbers of the format right below 128. -/
def step : Rat := 1 / 2 ^ 46

theorem step_pos : 0 < step := by norm_num [step]

theorem twoPow_eq_step : twoPow (-46) = step := by
  rw [twoPow_eq_zpow, step]
  norm_num

theorem spacing_le_step {q : Rat} (hq : 0 < q) (h : q < 128) : spacing q ≤ step := by
  have hpow : twoPow 7 = 128 := by
    rw [twoPow_eq_zpow]
    norm_num
  have hlog : floorLog2 q < 7 := floorLog2_lt_of_lt hq (hpow ▸ h)
  rw [spacing, spacingExponent_of_pos hq, ← twoPow_eq_step]
  exact twoPow_mono (by omega)

theorem abs_nearestEven_sub_le (q : Rat) : |(nearestEven q : Rat) - q| ≤ 1 := by
  have hlow : (q.floor : Rat) ≤ nearestEven q := by exact_mod_cast floor_le_nearestEven q
  have hhigh : (nearestEven q : Rat) ≤ q.floor + 1 := by
    exact_mod_cast nearestEven_le_floor_add_one q
  have hbelow : (q.floor : Rat) ≤ q := Rat.floor_le q
  have habove : q < q.floor + 1 := by exact_mod_cast Rat.lt_floor_add_one q
  rw [abs_le]
  constructor <;> linarith

theorem abs_rounded_sub_le {q : Rat} (hq : 0 ≤ q) (h : q < 128) : |rounded q - q| ≤ step := by
  rcases hq.eq_or_lt with rfl | hpos
  · rw [rounded_zero, sub_zero, abs_zero]
    exact step_pos.le
  · have hspacing := spacing_pos q
    have hsplit : rounded q - q = (nearestEven (q / spacing q) - q / spacing q) * spacing q := by
      rw [rounded, sub_mul, div_mul_cancel₀ q hspacing.ne']
    rw [hsplit, abs_mul, abs_of_pos hspacing]
    calc |(nearestEven (q / spacing q) : Rat) - q / spacing q| * spacing q
        ≤ 1 * spacing q := mul_le_mul_of_nonneg_right (abs_nearestEven_sub_le _) hspacing.le
      _ ≤ step := by
        rw [one_mul]
        exact spacing_le_step hpos h

/-! ## Nearness -/

/-- The number is finite, not negative, and within `ε` of `q`. -/
def Near (ε : Rat) (x : Binary64) (q : Rat) : Prop :=
  ∃ v, x = .finite v ∧ 0 ≤ v ∧ |v - q| ≤ ε

theorem near_finite {q : Rat} (hq : 0 ≤ q) : Near 0 (.finite q) q :=
  ⟨q, rfl, hq, by rw [sub_self, abs_zero]⟩

theorem round_near {q : Rat} (hq : 0 ≤ q) (h : q < 128) : Near step (round q) q := by
  have herror := abs_rounded_sub_le hq h
  have hrange : rounded q < overflowBound := by
    have hhigh := (abs_le.1 herror).2
    have hstep : step ≤ 1 := by norm_num [step]
    have hbound : twoPow 8 ≤ overflowBound := twoPow_mono (by norm_num)
    have hval : twoPow 8 = 256 := by
      rw [twoPow_eq_zpow]
      norm_num
    linarith
  rw [round_of_nonneg hq, if_neg (not_le.2 hrange)]
  exact ⟨rounded q, rfl, rounded_nonneg hq, herror⟩

variable {ε δ p q : Rat} {x y : Binary64}

theorem Near.mono (h : Near ε x q) (hle : ε ≤ δ) : Near δ x q := by
  obtain ⟨v, hx, hv, herror⟩ := h
  exact ⟨v, hx, hv, herror.trans hle⟩

/-- Rounding what is near adds at most one step to its distance. -/
theorem round_near_of_abs_sub_le {v : Rat} (hv : 0 ≤ v) (hv128 : v < 128) (h : |v - q| ≤ ε) :
    Near (ε + step) (round v) q := by
  obtain ⟨r, hr, hr0, herror⟩ := round_near hv hv128
  refine ⟨r, hr, hr0, (abs_sub_le r v q).trans ?_⟩
  linarith

theorem Near.add (hx : Near ε x p) (hy : Near δ y q) (hrange : p + q + ε + δ < 128) :
    Near (ε + δ + step) (x.add y) (p + q) := by
  obtain ⟨v, rfl, hv, hverror⟩ := hx
  obtain ⟨w, rfl, hw, hwerror⟩ := hy
  rw [add_finite]
  rw [abs_le] at hverror hwerror
  refine round_near_of_abs_sub_le (add_nonneg hv hw) (by linarith) (abs_le.2 ?_)
  constructor <;> linarith

/-- A product is as far off as each factor's distance, counted as often as the other factor is
large, and one step. -/
theorem Near.mul {a b : Rat} (hx : Near ε x p) (hy : Near δ y q) (hp : p + ε ≤ a) (hq0 : 0 ≤ q)
    (hq : q ≤ b) (hrange : a * (b + δ) < 128) :
    Near (a * δ + b * ε + step) (x.mul y) (p * q) := by
  obtain ⟨v, rfl, hv, hverror⟩ := hx
  obtain ⟨w, rfl, hw, hwerror⟩ := hy
  have hva : v ≤ a := by linarith [(abs_le.1 hverror).2]
  have hwb : w ≤ b + δ := by linarith [(abs_le.1 hwerror).2]
  rw [mul_finite hv hw]
  refine round_near_of_abs_sub_le (mul_nonneg hv hw) ?_ ?_
  · exact (mul_le_mul hva hwb hw (hv.trans hva)).trans_lt hrange
  · have hsplit : v * w - p * q = v * (w - q) + q * (v - p) := by ring
    have hε : 0 ≤ ε := (abs_nonneg _).trans hverror
    have hleft : v * |w - q| ≤ a * δ :=
      mul_le_mul hva hwerror (abs_nonneg _) (hv.trans hva)
    have hright : q * |v - p| ≤ b * ε :=
      mul_le_mul hq hverror (abs_nonneg _) (hq0.trans hq)
    calc |v * w - p * q| ≤ |v * (w - q)| + |q * (v - p)| := by
          rw [hsplit]
          exact abs_add_le _ _
      _ = v * |w - q| + q * |v - p| := by rw [abs_mul, abs_mul, abs_of_nonneg hv, abs_of_nonneg hq0]
      _ ≤ a * δ + b * ε := add_le_add hleft hright

/-- A sum over a list is as far off as all of its terms, with one step for each. -/
theorem Near.foldl_add {α : Type} {f : α → Binary64} {g : α → Rat} (hx : Near ε x q)
    (hnear : ∀ a, Near δ (f a) (g a)) (hg : ∀ a, 0 ≤ g a) (items : List α)
    (hrange : q + (items.map g).sum + (ε + items.length * (δ + step)) < 128) :
    Near (ε + items.length * (δ + step)) (items.foldl (fun sum a => sum.add (f a)) x)
      (q + (items.map g).sum) := by
  induction items generalizing x q ε with
  | nil => simpa using hx
  | cons a rest ih =>
    obtain ⟨_, -, -, hδ⟩ := hnear a
    have hδ0 : 0 ≤ δ := (abs_nonneg _).trans hδ
    have hrest : 0 ≤ (rest.map g).sum := List.sum_nonneg (List.forall_mem_map.2 fun b _ => hg b)
    have hsteps : 0 ≤ rest.length * (δ + step) :=
      mul_nonneg (Nat.cast_nonneg _) (add_nonneg hδ0 step_pos.le)
    have hsplit : ε + (a :: rest).length * (δ + step) =
        ε + δ + step + rest.length * (δ + step) := by
      rw [List.length_cons]
      push_cast
      ring
    rw [hsplit, List.map_cons, List.sum_cons, ← add_assoc q] at hrange ⊢
    exact ih (hx.add (hnear a) (by linarith [step_pos])) hrange

end ContractAudit.Binary64
