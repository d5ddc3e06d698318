/-
Amounts in cents. The figure shown for an amount has the value of the nearest number of cents, a
half going away from zero (`toRat_toCents`), whatever the scale of the amount; so figures keep the
order of the amounts, and an amount of whole cents is shown exactly.
-/
import Backtest.Decimal.Cents
import Backtest.Proofs.Decimal.Nearest
import Mathlib.Algebra.Order.Round

namespace Backtest

/-- The whole number nearest to `q`; a half goes away from zero. -/
def halfAway (q : ℚ) : ℤ :=
  if 0 ≤ q then round q else -round (-q)

theorem round_le_round {q r : ℚ} (h : q ≤ r) : round q ≤ round r := by
  rw [round_eq, round_eq]
  exact Int.floor_le_floor (by linarith)

theorem halfAway_mono {q r : ℚ} (h : q ≤ r) : halfAway q ≤ halfAway r := by
  have nonneg : ∀ {x : ℚ}, 0 ≤ x → 0 ≤ round x := fun hx => by
    rw [round_eq]
    exact Int.floor_nonneg.2 (by linarith)
  unfold halfAway
  split_ifs with hq hr hr
  · exact round_le_round h
  · linarith
  · have := nonneg (by linarith : 0 ≤ -q)
    have := nonneg hr
    omega
  · have := round_le_round (neg_le_neg h)
    omega

@[simp] theorem halfAway_intCast (n : ℤ) : halfAway n = n := by
  unfold halfAway
  rw [← Int.cast_neg, round_intCast, round_intCast, neg_neg, ite_self]

theorem round_eq_nearestAway (n : ℕ) {unit : ℕ} (h : 0 < unit) :
    round ((n : ℚ) / unit) = nearestAway n unit := by
  have hu : (unit : ℚ) ≠ 0 := by exact_mod_cast h.ne'
  have half : (n : ℚ) / unit + 1 / 2 = ((2 * n + unit : ℕ) : ℚ) / ((2 * unit : ℕ) : ℚ) := by
    push_cast
    field_simp
  rw [round_eq, half, Rat.floor_natCast_div_natCast]
  rfl

/-- The rounded magnitude takes the sign of the ratio. -/
theorem halfAway_of_magnitude (negative : Bool) (n : ℕ) {unit : ℕ} (h : 0 < unit) :
    halfAway ((if negative then -(n : ℚ) else n) / unit) =
      if negative then -(nearestAway n unit : ℤ) else nearestAway n unit := by
  have nonneg : (0 : ℚ) ≤ (n : ℚ) / unit := by positivity
  rw [← round_eq_nearestAway n h]
  unfold halfAway
  cases negative
  · simp only [Bool.false_eq_true, if_false]
    rw [if_pos nonneg]
  · simp only [if_true]
    rw [neg_div, neg_neg]
    by_cases hz : (n : ℚ) / unit = 0
    · simp [hz]
    · rw [if_neg (by rw [neg_nonneg]; exact not_le.2 (lt_of_le_of_ne nonneg (Ne.symm hz)))]

namespace Decimal

theorem toRat_mk (negative : Bool) (magnitude scale : ℕ) (hm : magnitude < bound)
    (hs : scale ≤ 28) : toRat ⟨negative, magnitude, scale, hm, hs⟩ =
      (if negative then -(magnitude : ℚ) else magnitude) / 10 ^ scale := by
  rw [toRat_eq]
  unfold Decimal.coefficient
  cases negative <;> simp

@[simp] theorem toRat_padZeros : ∀ (n : ℕ) (d : Decimal), (d.padZeros n).toRat = d.toRat
  | 0, _ => rfl
  | n + 1, d => by
    unfold padZeros
    split
    · rw [toRat_padZeros n]
      obtain ⟨negative, magnitude, scale, _, _⟩ := d
      rw [toRat_mk, toRat_mk, pow_succ]
      push_cast
      split_ifs <;> field_simp
    · rfl

/-- With two places, an amount has the value of the nearest number of cents. -/
theorem toRat_toPlaces_two (d : Decimal) :
    (d.toPlaces 2).toRat = halfAway (d.toRat * 100) / 100 := by
  unfold toPlaces
  split
  · next h =>
    -- an amount with two places at most is a whole number of cents
    obtain ⟨n, whole⟩ := exists_toRat_mul_pow_eq h
    rw [show (10 : ℚ) ^ 2 = 100 by norm_num] at whole
    rw [whole, halfAway_intCast, ← whole, mul_div_cancel_right₀ _ (by norm_num)]
  · next h =>
    obtain ⟨negative, magnitude, scale, hm, hs⟩ := d
    have digits : (10 : ℚ) ^ scale = ((10 ^ (scale - 2) : ℕ) : ℚ) * 100 := by
      have : scale = scale - 2 + 2 := by simp only at h; omega
      conv_lhs => rw [this, pow_add]
      push_cast
      norm_num
    have cents : toRat ⟨negative, magnitude, scale, hm, hs⟩ * 100 =
        (if negative then -(magnitude : ℚ) else magnitude) / ((10 ^ (scale - 2) : ℕ) : ℚ) := by
      rw [toRat_mk, digits]
      field_simp
    rw [cents, halfAway_of_magnitude _ _ (by positivity), toRat_mk]
    -- the sign is dropped only if nothing is left of the amount
    rcases Nat.eq_zero_or_pos (nearestAway magnitude (10 ^ (scale - 2))) with hz | hz
    · simp [hz]
    · cases negative <;> norm_num [hz.ne']

/-- The figure shown for an amount is the nearest number of cents, a half going away from zero. -/
theorem toRat_toCents (d : Decimal) : d.toCents.toRat = halfAway (d.toRat * 100) / 100 := by
  unfold toCents
  rw [toRat_padZeros, toRat_toPlaces_two]

@[simp] theorem toRat_toCents_zero : zero.toCents.toRat = 0 := by
  rw [toRat_toCents, toRat_zero, zero_mul, ← Int.cast_zero, halfAway_intCast, Int.cast_zero,
    zero_div]

/-- Figures keep the order of the amounts. -/
theorem toCents_mono {a b : Decimal} (h : a ≤ b) : a.toCents ≤ b.toCents := by
  have hundredfold : a.toRat * 100 ≤ b.toRat * 100 :=
    mul_le_mul_of_nonneg_right (le_iff.1 h) (by norm_num)
  rw [le_iff, toRat_toCents, toRat_toCents]
  exact div_le_div_of_nonneg_right (by exact_mod_cast halfAway_mono hundredfold) (by norm_num)

theorem toCents_nonpos {d : Decimal} (h : d ≤ .zero) : d.toCents ≤ .zero := by
  have shown := toCents_mono h
  rw [le_iff, toRat_toCents_zero] at shown
  rw [le_iff, toRat_zero]
  exact shown

theorem toCents_nonneg {d : Decimal} (h : .zero ≤ d) : .zero ≤ d.toCents := by
  have shown := toCents_mono h
  rw [le_iff, toRat_toCents_zero] at shown
  rw [le_iff, toRat_zero]
  exact shown

/-- An amount of whole cents is shown exactly. -/
theorem toRat_toCents_of_cents {d : Decimal} (cents : ℤ) (h : d.toRat * 100 = cents) :
    d.toCents.toRat = d.toRat := by
  rw [toRat_toCents, h, halfAway_intCast, ← h, mul_div_cancel_right₀ _ (by norm_num)]

end Decimal
end Backtest
