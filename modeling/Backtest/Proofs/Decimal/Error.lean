/-
How far rounding goes: by half a unit in the last place of the result. So an amount that is no finer
than the result is the result, once the ratio is closer to it than that. The case of interest is an
amount multiplied and then divided by one price: both results are rounded, and the amount comes
back if the product was not rounded, or if a unit in its last place, over the price, is no more than
one in the last place of the quotient.
-/
import Backtest.Proofs.Decimal.Arithmetic

namespace Backtest

theorem nearestEven_eq_of_abs_sub_lt {q : ℚ} {n : ℤ} (h : |q - n| < 1 / 2) : nearestEven q = n := by
  have near := abs_le.1 (abs_nearestEven_sub_le q)
  have close := abs_lt.1 h
  have below : (nearestEven q : ℚ) < n + 1 := by linarith
  have above : (n : ℚ) < nearestEven q + 1 := by linarith
  have : nearestEven q < n + 1 := by exact_mod_cast below
  have : n < nearestEven q + 1 := by exact_mod_cast above
  omega

namespace Decimal

/-- The unit in the last place. -/
def lastPlace (d : Decimal) : ℚ :=
  1 / 10 ^ d.scale

section Rounding

variable {q : ℚ} {a b : Decimal}

/-- Rounding changes a ratio by at most half a unit in the last place. -/
theorem abs_toRat_sub_le (h : nearest? q = some a) : |a.toRat - q| ≤ a.lastPlace / 2 := by
  have unit : (0 : ℚ) < 10 ^ a.scale := by positivity
  have near := abs_nearestEven_sub_le (q * 10 ^ a.scale)
  rw [← (isNearest_of_nearest? h).coefficient, ← toRat_mul_pow, ← sub_mul, abs_mul,
    abs_of_pos unit] at near
  unfold lastPlace
  rw [div_div, le_div_iff₀ (by positivity)]
  linarith

/-- A ratio closer to an amount than half a unit in the last place is rounded to it. -/
theorem toRat_eq_of_abs_sub_lt (h : nearest? q = some a) (hs : b.scale ≤ a.scale)
    (near : |q - b.toRat| < a.lastPlace / 2) : a.toRat = b.toRat := by
  have unit : (0 : ℚ) < 10 ^ a.scale := by positivity
  obtain ⟨n, whole⟩ := exists_toRat_mul_pow_eq hs
  have coefficient := (isNearest_of_nearest? h).coefficient
  rw [nearestEven_eq_of_abs_sub_lt (n := n)] at coefficient
  · rw [toRat_eq, coefficient, ← whole, mul_div_cancel_right₀ _ unit.ne']
  · rw [← whole, ← sub_mul, abs_mul, abs_of_pos unit]
    unfold lastPlace at near
    rw [div_div, lt_div_iff₀ (by positivity)] at near
    linarith

end Rounding

/-! ## Multiplied and divided by one price -/

section Price

variable {base price grown value : Decimal}

theorem toRat_eq_of_exact_product (hv : grown.div price = .ok value)
    (exact_product : grown.toRat = base.toRat * price.toRat) : value.toRat = base.toRat := by
  obtain ⟨some_price, hv⟩ := div_eq_ok_iff.1 hv
  rw [exact_product, mul_div_cancel_right₀ _ fun e => some_price (magnitude_eq_zero_iff.2 e)] at hv
  exact (isNearest_of_nearest? hv).toRat_eq_of_toRat

/-- Over the price, the product is as far from the amount as its rounding has taken it. -/
theorem abs_quotient_sub_le (hp : price.IsPositive) (hg : base.mul price = .ok grown) :
    |grown.toRat / price.toRat - base.toRat| ≤ grown.lastPlace / price.toRat / 2 := by
  have positive := isPositive_iff.1 hp
  have product := abs_toRat_sub_le (mul_eq_ok_iff.1 hg)
  have gap : grown.toRat / price.toRat - base.toRat =
      (grown.toRat - base.toRat * price.toRat) / price.toRat := by field_simp
  rw [gap, abs_div, abs_of_pos positive, div_right_comm]
  exact div_le_div_of_nonneg_right product positive.le

/-- Each of the two roundings changes the amount by half a unit in its last place at most. -/
theorem abs_toRat_sub_le_of_price (hp : price.IsPositive) (hg : base.mul price = .ok grown)
    (hv : grown.div price = .ok value) :
    |value.toRat - base.toRat| ≤ (grown.lastPlace / price.toRat + value.lastPlace) / 2 := by
  have product := abs_le.1 (abs_quotient_sub_le hp hg)
  have quotient := abs_le.1 (abs_toRat_sub_le (div_eq_ok_iff.1 hv).2)
  rw [abs_le]
  constructor <;> linarith

/-- A unit in the last place of the product, over the price, is what the quotient can tell apart. If
that is no more than a unit in its own last place, the amount comes back. -/
theorem toRat_eq_of_lastPlace_le (hp : price.IsPositive) (hg : base.mul price = .ok grown)
    (hv : grown.div price = .ok value) (hs : base.scale ≤ value.scale)
    (fine : grown.lastPlace / price.toRat ≤ value.lastPlace) : value.toRat = base.toRat := by
  have positive := isPositive_iff.1 hp
  rcases fine.lt_or_eq with finer | same
  · have product := abs_quotient_sub_le hp hg
    exact toRat_eq_of_abs_sub_lt (div_eq_ok_iff.1 hv).2 hs (by linarith)
  · -- the price is a power of ten then, so the product was not rounded
    obtain ⟨n, whole⟩ := exists_toRat_mul_pow_eq hs
    have shift : price.toRat * 10 ^ grown.scale = 10 ^ value.scale := by
      unfold lastPlace at same
      field_simp at same
      linarith
    refine toRat_eq_of_exact_product hv ?_
    refine (isNearest_of_nearest? (mul_eq_ok_iff.1 hg)).toRat_eq_of_whole (n := n) ?_
    rw [mul_assoc, shift, whole]

end Price
end Decimal
end Backtest
