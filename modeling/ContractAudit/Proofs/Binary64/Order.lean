import ContractAudit.Proofs.Binary64.Rounding

/-!
# Arithmetic keeps the order

Scores and penalties are computed with numbers that are not negative. On these, `Binary64.le` is the
order of the rationals with the infinity on top, every operation of the scoring is one rounding of
the exact result (`add_finite`, `mul_finite`, `divNat_finite`, `sub_finite`), and a larger operand
never gives a smaller result.

Main results:

* `round_le_round`: rounding is monotone, also past the end of the range.
* `add_mono`, `mul_mono`: so are sums, and products of finite numbers.
* `round_between`: what lies between two numbers of the format stays between them.
* `add_le_add_add`: a sum does not fall when more is added, however it is rounded.
* `foldl_add_mono`: a sum over a list grows with its start and its terms.
-/

namespace ContractAudit.Binary64

/-! ## Numbers that are not negative -/

/-- A finite number from zero up, or the infinity above them. -/
def IsNonneg : Binary64 → Prop
  | .finite value => 0 ≤ value
  | .infinite negative => negative = false
  | _ => False

theorem isNonneg_cases {x : Binary64} (h : x.IsNonneg) :
    (∃ value, x = .finite value ∧ 0 ≤ value) ∨ x = .infinite false := by
  cases x with
  | nan => exact h.elim
  | infinite negative => exact Or.inr (congrArg infinite h)
  | negativeZero => exact h.elim
  | finite value => exact Or.inl ⟨value, rfl, h⟩

theorem le_finite_iff {a b : Rat} : (finite a).le (finite b) = true ↔ a ≤ b := by
  simp [le, place?, Place.before]

theorem lt_finite_iff {a b : Rat} : (finite a).lt (finite b) = true ↔ a < b := by
  simp [lt, place?, Place.before]

theorem lt_eq_false_of_le {x y : Binary64} (h : x.le y = true) : y.lt x = false := by
  unfold le at h
  unfold lt
  split at h
  · rename_i p q hp hq
    rw [hp, hq]
    simpa using h
  · cases h

theorem le_infinite {x : Binary64} (h : x.IsNonneg) : x.le (.infinite false) = true := by
  rcases isNonneg_cases h with ⟨value, rfl, -⟩ | rfl <;> rfl

theorem not_infinite_le_finite (b : Rat) : (infinite false).le (finite b) = false := rfl

/-- What is not above a finite number is finite itself. -/
theorem exists_finite_of_le {x : Binary64} {b : Rat} (hx : x.IsNonneg)
    (h : x.le (.finite b) = true) : ∃ a, x = .finite a ∧ 0 ≤ a ∧ a ≤ b := by
  rcases isNonneg_cases hx with ⟨a, rfl, ha⟩ | rfl
  · exact ⟨a, rfl, ha, le_finite_iff.1 h⟩
  · rw [not_infinite_le_finite] at h
    cases h

theorem le_refl_of_isNonneg {x : Binary64} (h : x.IsNonneg) : x.le x = true := by
  rcases isNonneg_cases h with ⟨value, rfl, -⟩ | rfl
  · exact le_finite_iff.2 (le_refl value)
  · rfl

theorem zero_le_of_isNonneg {x : Binary64} (h : x.IsNonneg) : (finite 0).le x = true := by
  rcases isNonneg_cases h with ⟨value, rfl, hvalue⟩ | rfl
  · exact le_finite_iff.2 hvalue
  · rfl

/-! ## Rounding -/

theorem round_isNonneg {q : Rat} (h : 0 ≤ q) : (round q).IsNonneg := by
  rw [round_of_nonneg h]
  split
  · rfl
  · exact rounded_nonneg h

theorem round_zero : round 0 = .finite 0 := rfl

/-- Rounding is monotone, also past the end of the range. -/
theorem round_le_round {p q : Rat} (hp : 0 ≤ p) (h : p ≤ q) : (round p).le (round q) = true := by
  have hgrid := rounded_mono hp h
  rw [round_of_nonneg (hp.trans h)]
  split
  · exact le_infinite (round_isNonneg hp)
  · -- the larger number is in the range, and then so is the smaller one
    rename_i hrange
    rw [round_of_nonneg hp, if_neg (fun hover => hrange (hover.trans hgrid))]
    exact le_finite_iff.2 hgrid

/-- What lies between two numbers of the format stays between them. -/
theorem round_between {a b q : Rat} (ha : round a = .finite a) (hb : round b = .finite b)
    (hpos : 0 ≤ a) (hlow : a ≤ q) (hhigh : q ≤ b) :
    ∃ value, round q = .finite value ∧ a ≤ value ∧ value ≤ b := by
  have hq : 0 ≤ q := hpos.trans hlow
  have hbelow := round_le_round hq hhigh
  rw [hb] at hbelow
  obtain ⟨value, hvalue, -, hvalueb⟩ := exists_finite_of_le (round_isNonneg hq) hbelow
  have habove := round_le_round hpos hlow
  rw [ha, hvalue] at habove
  exact ⟨value, hvalue, le_finite_iff.1 habove, hvalueb⟩

/-! ## Operations as one rounding -/

theorem add_finite (a b : Rat) : (finite a).add (.finite b) = round (a + b) := rfl

theorem mul_finite {a b : Rat} (ha : 0 ≤ a) (hb : 0 ≤ b) :
    (finite a).mul (.finite b) = round (a * b) := by
  have hsign : ((finite a).isNegative != (finite b).isNegative) = false := by
    simp [isNegative, not_lt.2 ha, not_lt.2 hb]
  simp only [mul, hsign]
  -- a product that is zero is not rounded, which makes no difference without a sign
  split
  · rename_i hzero
    rw [hzero, round_zero]
    rfl
  · rfl

theorem divNat_finite (a : Rat) (n : Nat) : (finite a).divNat n = round (a / n) := by
  simp only [divNat]
  split
  · rename_i hzero
    rw [hzero, zero_div, round_zero]
  · rfl

/-- A difference from a number of the format; subtracting zero gives the number itself. -/
theorem sub_finite {a : Rat} (b : Rat) (ha : round a = .finite a) :
    (finite a).sub (.finite b) = round (a - b) := by
  simp only [sub, neg]
  split
  · rename_i hzero
    rw [hzero, sub_zero, ha]
    rfl
  · rw [add_finite, sub_eq_add_neg]

/-! ## Monotone operations -/

theorem add_isNonneg {x y : Binary64} (hx : x.IsNonneg) (hy : y.IsNonneg) :
    (x.add y).IsNonneg := by
  rcases isNonneg_cases hx with ⟨a, rfl, ha⟩ | rfl <;>
    rcases isNonneg_cases hy with ⟨b, rfl, hb⟩ | rfl
  · exact round_isNonneg (add_nonneg ha hb)
  all_goals rfl

theorem add_mono {x y x' y' : Binary64} (hx : x.IsNonneg) (hy : y.IsNonneg)
    (hx' : x'.IsNonneg) (hy' : y'.IsNonneg) (hxx : x.le x' = true) (hyy : y.le y' = true) :
    (x.add y).le (x'.add y') = true := by
  have hsum := add_isNonneg hx hy
  -- an infinite summand of the larger sum makes it infinite, and nothing is above that
  rcases isNonneg_cases hx' with ⟨a', rfl, ha'⟩ | rfl
  · rcases isNonneg_cases hy' with ⟨b', rfl, hb'⟩ | rfl
    · obtain ⟨a, rfl, ha, haa⟩ := exists_finite_of_le hx hxx
      obtain ⟨b, rfl, hb, hbb⟩ := exists_finite_of_le hy hyy
      exact round_le_round (add_nonneg ha hb) (add_le_add haa hbb)
    · exact le_infinite hsum
  · rcases isNonneg_cases hy' with ⟨b', rfl, hb'⟩ | rfl
    · exact le_infinite hsum
    · exact le_infinite hsum

theorem mul_mono {a b c : Rat} (ha : 0 ≤ a) (hc : 0 ≤ c) (h : a ≤ b) :
    ((finite a).mul (.finite c)).le ((finite b).mul (.finite c)) = true := by
  rw [mul_finite ha hc, mul_finite (ha.trans h) hc]
  exact round_le_round (mul_nonneg ha hc) (mul_le_mul_of_nonneg_right h hc)

theorem mul_isNonneg {a b : Rat} (ha : 0 ≤ a) (hb : 0 ≤ b) :
    ((finite a).mul (.finite b)).IsNonneg := by
  rw [mul_finite ha hb]
  exact round_isNonneg (mul_nonneg ha hb)

/-! ## Sums of many terms -/

/-- What rounding gave is not lost by adding to it: the sum is rounded again, but not down past a
number of the format. -/
theorem round_le_add {q : Rat} (hq : 0 ≤ q) {y : Binary64} (hy : y.IsNonneg) :
    (round q).le ((round q).add y) = true := by
  rw [round_of_nonneg hq]
  by_cases hrange : overflowBound ≤ rounded q
  · rw [if_pos hrange]
    rcases isNonneg_cases hy with ⟨b, rfl, -⟩ | rfl <;> rfl
  · rw [if_neg hrange]
    rcases isNonneg_cases hy with ⟨b, rfl, hb⟩ | rfl
    · have hle : rounded q ≤ rounded q + b := le_add_of_nonneg_right hb
      rw [add_finite, round_of_nonneg ((rounded_nonneg hq).trans hle)]
      split
      · rfl
      · exact le_finite_iff.2 (rounded_le_rounded hq hle)
    · rfl

/-- A sum is not lost by adding to it. -/
theorem add_le_add_add {x y z : Binary64} (hx : x.IsNonneg) (hy : y.IsNonneg) (hz : z.IsNonneg) :
    (x.add y).le ((x.add y).add z) = true := by
  have hinfinite : (infinite false).le ((infinite false).add z) = true := by
    rcases isNonneg_cases hz with ⟨c, rfl, -⟩ | rfl <;> rfl
  rcases isNonneg_cases hx with ⟨a, rfl, ha⟩ | rfl
  · rcases isNonneg_cases hy with ⟨b, rfl, hb⟩ | rfl
    · exact round_le_add (add_nonneg ha hb) hz
    · exact hinfinite
  · rcases isNonneg_cases hy with ⟨b, rfl, -⟩ | rfl
    · exact hinfinite
    · exact hinfinite

section Sums

variable {α : Type} {f g : α → Binary64} (hf : ∀ a, (f a).IsNonneg)
include hf

theorem foldl_add_isNonneg (items : List α) {x : Binary64} (hx : x.IsNonneg) :
    (items.foldl (fun sum a => sum.add (f a)) x).IsNonneg := by
  induction items generalizing x with
  | nil => exact hx
  | cons a rest ih => exact ih (add_isNonneg hx (hf a))

/-- Adding larger terms to a larger sum gives a larger sum. -/
theorem foldl_add_mono (hg : ∀ a, (g a).IsNonneg) (hfg : ∀ a, (f a).le (g a) = true)
    (items : List α) {x y : Binary64} (hx : x.IsNonneg) (hy : y.IsNonneg) (hxy : x.le y = true) :
    (items.foldl (fun sum a => sum.add (f a)) x).le
      (items.foldl (fun sum a => sum.add (g a)) y) = true := by
  induction items generalizing x y with
  | nil => exact hxy
  | cons a rest ih =>
    exact ih (add_isNonneg hx (hf a)) (add_isNonneg hy (hg a))
      (add_mono hx (hf a) hy (hg a) hxy (hfg a))

end Sums

end ContractAudit.Binary64
