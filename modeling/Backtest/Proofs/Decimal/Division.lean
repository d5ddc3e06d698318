/-
Divisors. The operations on amounts fail where the result is too large, and a division fails for a
zero divisor too. A computation that rules out the latter is `SafeDivision`; what rules it out is
known where the divisor was computed, so the property is carried along the chain of the steps.
-/
import Backtest.Proofs.Chain
import Backtest.Proofs.Decimal.Arithmetic

namespace Backtest

/-- The computation does not fail for a zero divisor. -/
def SafeDivision {α : Type} (x : Except Fault α) : Prop :=
  x ≠ .error .zeroDivisor

namespace SafeDivision

theorem ok {α : Type} (a : α) : SafeDivision (.ok a : Except Fault α) :=
  nofun

theorem bind {α β : Type} {x : Except Fault α} {f : α → Except Fault β} (hx : SafeDivision x)
    (hf : ∀ a, x = .ok a → SafeDivision (f a)) : SafeDivision (x >>= f) :=
  bind_ne_error hx hf

/-- Where no operation overflows, a computation that divides safely has a result. -/
theorem exists_ok {α : Type} {x : Except Fault α} (h : SafeDivision x)
    (fits : ∀ fault, x = .error fault → fault = .zeroDivisor) : ∃ a, x = .ok a := by
  rcases x with fault | a
  · cases fits fault rfl
    exact absurd rfl h
  · exact ⟨a, rfl⟩

end SafeDivision

namespace Decimal

variable {a b : Decimal} {n m : ℕ}

theorem safe_rounded {fault : Fault} (h : fault ≠ .zeroDivisor) (q : ℚ) :
    SafeDivision (rounded fault q) :=
  fun e => h (rounded_eq_error_iff.1 e).1.symm

theorem safe_add (a b : Decimal) : SafeDivision (a.add b) :=
  safe_rounded (by decide) _

theorem safe_sub (a b : Decimal) : SafeDivision (a.sub b) :=
  safe_rounded (by decide) _

theorem safe_mul (a b : Decimal) : SafeDivision (a.mul b) :=
  safe_rounded (by decide) _

theorem safe_times (a : Decimal) (n : ℕ) : SafeDivision (a.times n) :=
  safe_rounded (by decide) _

theorem safe_div (h : b.toRat ≠ 0) : SafeDivision (a.div b) := by
  unfold Decimal.div
  rw [if_neg fun e => h (magnitude_eq_zero_iff.1 e)]
  exact safe_rounded (by decide) _

theorem safe_div_of_isPositive (h : b.IsPositive) : SafeDivision (a.div b) :=
  safe_div (isPositive_iff.1 h).ne'

theorem safe_part (h : n ≠ 0) : SafeDivision (a.part n) := by
  unfold part
  rw [if_neg h]
  exact safe_rounded (by decide) _

theorem safe_ratio (h : m ≠ 0) : SafeDivision (ratio n m) := by
  unfold ratio
  rw [if_neg h]
  exact safe_rounded (by decide) _

end Decimal
end Backtest
