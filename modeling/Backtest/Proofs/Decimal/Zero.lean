/-
Zero and one in decimal operations. An operation whose exact result is zero gives `fullZero`, the
zero with all fraction digits, whatever the digits of its operands; one times an amount has the value
of the amount.
-/
import Backtest.Decimal.Cents
import Backtest.Proofs.Decimal.Arithmetic

namespace Backtest.Decimal

/-- Zero as the result of an operation, which shows all fraction digits. -/
def fullZero : Decimal := (nearest? 0).getD zero

theorem toCents_fullZero : fullZero.toCents = zero.toCents := by decide +kernel

theorem toRat_fullZero : fullZero.toRat = 0 :=
  magnitude_eq_zero_iff.1 (by decide +kernel)

theorem rounded_zero (fault : Fault) : rounded fault 0 = .ok fullZero :=
  rounded_eq_ok_iff.2 (by decide +kernel)

variable {a b : Decimal}

theorem sub_of_toRat_eq (h : a.toRat = b.toRat) : a.sub b = .ok fullZero := by
  unfold Decimal.sub
  rw [h, sub_self, rounded_zero]

theorem mul_of_toRat_eq_zero (h : a.toRat = 0) (b : Decimal) : a.mul b = .ok fullZero := by
  unfold Decimal.mul
  rw [h, zero_mul, rounded_zero]

theorem div_of_toRat_eq_zero (h : a.toRat = 0) (hb : b.IsPositive) : a.div b = .ok fullZero := by
  unfold Decimal.div
  rw [if_neg fun e => (isPositive_iff.1 hb).ne' (magnitude_eq_zero_iff.1 e), h, zero_div,
    rounded_zero]

/-- One times an amount is the amount, up to its digits. -/
theorem exists_mul_of_toRat_eq_one (h : a.toRat = 1) (b : Decimal) :
    ∃ c, a.mul b = .ok c ∧ c.toRat = b.toRat := by
  obtain ⟨c, hc, value⟩ := nearest?_toRat b
  refine ⟨c, mul_eq_ok_iff.2 ?_, value⟩
  rw [h, one_mul, hc]

/-- An amount over one of its value is one, up to its digits. -/
theorem exists_div_of_toRat_eq (h : a.toRat = b.toRat) (hb : b.IsPositive) :
    ∃ c, a.div b = .ok c ∧ c.toRat = 1 := by
  have positive := (isPositive_iff.1 hb).ne'
  obtain ⟨c, hc, value⟩ := nearest?_toRat one
  rw [toRat_one] at hc value
  refine ⟨c, div_eq_ok_iff.2 ⟨fun e => positive (magnitude_eq_zero_iff.1 e), ?_⟩, value⟩
  rw [h, div_self positive, hc]

end Backtest.Decimal
