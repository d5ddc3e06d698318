/-
Ratios on ticks. A tick is a unit in some decimal place, and a ratio on ticks is a whole number of
them. Below `2 ^ 96` ticks such a ratio is the value of an amount and is not rounded
(`exists_nearest?_of_onTick`), whatever the digits of the amounts it was computed from. So sums and
differences on ticks stay exact as long as they are below that, however many there are.
-/
import Backtest.Proofs.Decimal.Arithmetic

namespace Backtest

/-- A whole number of ticks of `10 ^ (-scale)`. -/
def OnTick (scale : ℕ) (q : ℚ) : Prop :=
  ∃ n : ℤ, q * 10 ^ scale = n

namespace OnTick

variable {scale : ℕ} {q r : ℚ}

theorem zero (scale : ℕ) : OnTick scale 0 :=
  ⟨0, by rw [zero_mul, Int.cast_zero]⟩

theorem add (hq : OnTick scale q) (hr : OnTick scale r) : OnTick scale (q + r) := by
  obtain ⟨n, hn⟩ := hq
  obtain ⟨m, hm⟩ := hr
  exact ⟨n + m, by rw [add_mul, hn, hm, Int.cast_add]⟩

theorem neg (hq : OnTick scale q) : OnTick scale (-q) := by
  obtain ⟨n, hn⟩ := hq
  exact ⟨-n, by rw [neg_mul, hn, Int.cast_neg]⟩

theorem sub (hq : OnTick scale q) (hr : OnTick scale r) : OnTick scale (q - r) := by
  rw [sub_eq_add_neg]
  exact hq.add hr.neg

theorem natCast_mul (n : ℕ) (hq : OnTick scale q) : OnTick scale (n * q) := by
  obtain ⟨m, hm⟩ := hq
  exact ⟨n * m, by rw [mul_assoc, hm]; push_cast; rfl⟩

/-- A tick is a whole number of finer ones. -/
theorem finer {scale' : ℕ} (hs : scale ≤ scale') (hq : OnTick scale q) : OnTick scale' q := by
  obtain ⟨n, hn⟩ := hq
  refine ⟨n * 10 ^ (scale' - scale), ?_⟩
  push_cast
  rw [← hn, mul_assoc, ← pow_add, Nat.add_sub_cancel' hs]

end OnTick

namespace Decimal

theorem onTick_toRat (d : Decimal) : OnTick d.scale d.toRat :=
  exists_toRat_mul_pow_eq le_rfl

section Ticks

variable {scale : ℕ} {q : ℚ}

theorem fits_of_onTick (tick : OnTick scale q) (small : |q| * 10 ^ scale < bound) :
    Fits q scale := by
  obtain ⟨n, whole⟩ := tick
  have unit : (0 : ℚ) < 10 ^ scale := by positivity
  rw [← abs_of_pos unit, ← abs_mul, whole, ← Int.cast_abs, ← Nat.cast_natAbs] at small
  unfold Fits
  rw [whole, nearestEven_intCast]
  exact_mod_cast small

/-- Below `2 ^ 96` ticks a ratio is not rounded. -/
theorem exists_nearest?_of_onTick (hs : scale ≤ 28) (tick : OnTick scale q)
    (small : |q| * 10 ^ scale < bound) : ∃ d, nearest? q = some d ∧ d.toRat = q := by
  have fits := fits_of_onTick tick small
  obtain ⟨d, hd⟩ := exists_nearest? hs fits
  have nearest := isNearest_of_nearest? hd
  obtain ⟨n, whole⟩ := tick.finer (nearest.finest scale hs fits)
  exact ⟨d, hd, nearest.toRat_eq_of_whole whole⟩

/-- Whole numbers below `2 ^ 96` are amounts. -/
theorem exists_nearest?_natCast {n : ℕ} (h : n < bound) :
    ∃ d, nearest? (n : ℚ) = some d ∧ d.toRat = n := by
  refine exists_nearest?_of_onTick (Nat.zero_le 28) ⟨n, ?_⟩ ?_
  · rw [pow_zero, mul_one, Int.cast_natCast]
  · rw [pow_zero, mul_one, abs_of_nonneg (Nat.cast_nonneg n)]
    exact_mod_cast h

variable {a b : Decimal}

theorem exists_add_of_onTick (hs : scale ≤ 28) (ha : OnTick scale a.toRat)
    (hb : OnTick scale b.toRat) (small : |a.toRat + b.toRat| * 10 ^ scale < bound) :
    ∃ c, a.add b = .ok c ∧ c.toRat = a.toRat + b.toRat := by
  obtain ⟨c, hc, value⟩ := exists_nearest?_of_onTick hs (ha.add hb) small
  exact ⟨c, add_eq_ok_iff.2 hc, value⟩

theorem exists_sub_of_onTick (hs : scale ≤ 28) (ha : OnTick scale a.toRat)
    (hb : OnTick scale b.toRat) (small : |a.toRat - b.toRat| * 10 ^ scale < bound) :
    ∃ c, a.sub b = .ok c ∧ c.toRat = a.toRat - b.toRat := by
  obtain ⟨c, hc, value⟩ := exists_nearest?_of_onTick hs (ha.sub hb) small
  exact ⟨c, sub_eq_ok_iff.2 hc, value⟩

end Ticks

end Decimal
end Backtest
