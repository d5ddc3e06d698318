/-
Rounding of an exact quotient to a whole number. The two rules of the library differ only on a
quotient half-way between two whole numbers: `nearestEven` takes the even one, `nearestAway` the
one farther from zero.
-/
namespace Backtest

/-- The whole number nearest to `q`; a half goes to the even neighbour. -/
def nearestEven (q : Rat) : Int :=
  let below := q.floor
  let rest := q - below
  if rest < 1 / 2 then below
  else if 1 / 2 < rest then below + 1
  else if below % 2 = 0 then below
  else below + 1

/-- The whole number nearest to `n / unit`, of magnitudes; a half goes away from zero. -/
def nearestAway (n unit : Nat) : Nat :=
  (2 * n + unit) / (2 * unit)

/-- Rounding a quotient never enlarges the dividend. -/
theorem nearestAway_le (n unit : Nat) : nearestAway n unit ≤ n := by
  unfold nearestAway
  rcases Nat.eq_zero_or_pos unit with rfl | h
  · simp
  · rw [Nat.div_le_iff_le_mul_add_pred (by omega)]
    have : n ≤ n * unit := Nat.le_mul_of_pos_right _ h
    have e : 2 * unit * n = 2 * (n * unit) := by
      rw [Nat.mul_assoc, Nat.mul_comm unit]
    omega

end Backtest
