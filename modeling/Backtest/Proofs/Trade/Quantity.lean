/-
Whole units. The quotient of cash and price is rounded before the units are counted, and rounding
could lift it onto the next whole number. Cash and price of less than `10 ^ 28` ticks rule that out:
a quotient below a whole number is so by one tick over the price at least, which is more than half a
unit in its last place, whether it has all fraction digits or is too large for more
(`floor_toRat_of_nearest?_ratio`). So the units bought are as many as the cash pays for, or one.
-/
import Backtest.Proofs.Chain
import Backtest.Proofs.Decimal.Error
import Backtest.Proofs.Decimal.Tick
import Backtest.Trade.Simulation

namespace Backtest

namespace Decimal

theorem toRat_floor (d : Decimal) : d.floor.toRat = ⌊d.toRat⌋ := by
  have whole : ⌊d.toRat⌋ = d.coefficient / 10 ^ d.scale := by
    have := Rat.floor_intCast_div_natCast d.coefficient (10 ^ d.scale)
    rw [toRat_eq]
    push_cast at this
    exact this
  rw [whole, toRat_eq]
  unfold floor
  rw [coefficient_ofCoefficient]
  simp [ofCoefficient]

section Ratio

variable {n m : ℕ} {d : Decimal}

/-- Of whole numbers below `10 ^ 28`, the divisor is so small that one over it is more than half a
unit in the last place of the rounded quotient. -/
theorem lt_two_mul_pow_of_nearest?_ratio (hn : (n : ℚ) < 10 ^ 28) (hm : 0 < m)
    (hm' : (m : ℚ) < 10 ^ 28) (h : nearest? ((n : ℚ) / m) = some d) :
    (m : ℚ) < 2 * 10 ^ d.scale := by
  have divisor : (0 : ℚ) < m := by exact_mod_cast hm
  have unit : (0 : ℚ) < 10 ^ d.scale := by positivity
  rcases d.scale_le.lt_or_eq with coarse | full
  · -- the coefficient has no room for another digit, so the quotient is large
    have large := (isNearest_of_nearest? h).bound_le coarse
    have large : (bound : ℚ) ≤ 10 * d.magnitude := by exact_mod_cast large
    have near := (abs_le.1 (abs_toRat_sub_le h)).2
    have nonneg : 0 ≤ d.toRat := nonneg_of_nearest? h (by positivity)
    have value : d.toRat = d.magnitude / 10 ^ d.scale := by rw [← abs_toRat, abs_of_nonneg nonneg]
    have quotient : (bound : ℚ) / 10 - 1 / 2 ≤ n / m * 10 ^ d.scale := by
      have : (d.magnitude : ℚ) ≤ n / m * 10 ^ d.scale + 1 / 2 := by
        rw [value] at near
        unfold lastPlace at near
        field_simp at near ⊢
        linarith
      linarith
    have half : (5 : ℚ) * 10 ^ 27 ≤ (bound : ℚ) / 10 - 1 / 2 := by norm_num [bound]
    have product : (5 * 10 ^ 27) * (m : ℚ) ≤ n * 10 ^ d.scale := by
      calc (5 * 10 ^ 27) * (m : ℚ) ≤ n / m * 10 ^ d.scale * m :=
            mul_le_mul_of_nonneg_right (half.trans quotient) divisor.le
        _ = n * 10 ^ d.scale := by field_simp
    have less := mul_lt_mul_of_pos_right hn unit
    linarith
  · rw [full]
    linarith

theorem lt_bound_of_lt (hn : (n : ℚ) < 10 ^ 28) : n < bound := by
  have : (10 ^ 28 : ℚ) < bound := by norm_num [bound]
  exact_mod_cast hn.trans this

/-- Rounding leaves the whole part of a quotient of whole numbers below `10 ^ 28` as it is. -/
theorem floor_toRat_of_nearest?_ratio (hn : (n : ℚ) < 10 ^ 28) (hm : 0 < m)
    (hm' : (m : ℚ) < 10 ^ 28) (h : nearest? ((n : ℚ) / m) = some d) :
    ⌊d.toRat⌋ = ⌊(n : ℚ) / m⌋ := by
  have divisor : (0 : ℚ) < m := by exact_mod_cast hm
  have floor : ⌊(n : ℚ) / m⌋ = ((n / m : ℕ) : ℤ) := Rat.floor_natCast_div_natCast n m
  rw [floor, Int.floor_eq_iff, Int.cast_natCast]
  constructor
  · -- the whole part is an amount, so rounding does not go below it
    have le := Int.floor_le ((n : ℚ) / m)
    rw [floor, Int.cast_natCast] at le
    obtain ⟨part, hp, value⟩ :=
      exists_nearest?_natCast ((Nat.div_le_self n m).trans_lt (lt_bound_of_lt hn))
    rw [← value]
    exact toRat_mono_of_nearest? hp h le
  · -- the next whole number is one over the divisor away at least
    have division : (n : ℚ) + 1 ≤ m * ((n / m : ℕ) + 1) := by
      exact_mod_cast Nat.lt_mul_div_succ n hm
    have gap : (n : ℚ) / m + 1 / m ≤ (n / m : ℕ) + 1 := by
      rw [← add_div, div_le_iff₀ divisor]
      linarith
    have half : d.lastPlace / 2 < 1 / m := by
      unfold lastPlace
      rw [div_div]
      refine one_div_lt_one_div_of_lt divisor ?_
      linarith [lt_two_mul_pow_of_nearest?_ratio hn hm hm' h]
    linarith [(abs_le.1 (abs_toRat_sub_le h)).2]

end Ratio

end Decimal

theorem OnTick.exists_natCast {scale : ℕ} {q : ℚ} (h : OnTick scale q) (hq : 0 < q) :
    ∃ n : ℕ, 0 < n ∧ q * 10 ^ scale = n := by
  obtain ⟨z, hz⟩ := h
  have positive : (0 : ℚ) < z := by
    rw [← hz]
    positivity
  obtain ⟨n, rfl⟩ := Int.eq_ofNat_of_zero_le (by exact_mod_cast positive.le)
  exact ⟨n, by exact_mod_cast positive, by rw [hz]; rfl⟩

section Units

variable {cash price : Decimal} {scale : ℕ}

/-- The quotient of cash and price can be rounded, and its whole part is that of the exact one. -/
theorem exists_quotient (cash_pos : cash.IsPositive) (price_pos : price.IsPositive)
    (cash_tick : OnTick scale cash.toRat) (price_tick : OnTick scale price.toRat)
    (cash_lt : cash.toRat * 10 ^ scale < 10 ^ 28) (price_lt : price.toRat * 10 ^ scale < 10 ^ 28) :
    ∃ quotient, cash.div price = .ok quotient ∧ ⌊quotient.toRat⌋ = ⌊cash.toRat / price.toRat⌋ := by
  have price_rat := Decimal.isPositive_iff.1 price_pos
  obtain ⟨n, -, cash_eq⟩ := cash_tick.exists_natCast (Decimal.isPositive_iff.1 cash_pos)
  obtain ⟨m, hm, price_eq⟩ := price_tick.exists_natCast price_rat
  rw [cash_eq] at cash_lt
  rw [price_eq] at price_lt
  have unit : (10 : ℚ) ^ scale ≠ 0 := by positivity
  have ratio : cash.toRat / price.toRat = (n : ℚ) / m := by
    rw [← cash_eq, ← price_eq, mul_div_mul_right _ _ unit]
  -- the quotient is no more than the ticks of the cash, which are an amount
  obtain ⟨ticks, -, value⟩ := Decimal.exists_nearest?_natCast (Decimal.lt_bound_of_lt cash_lt)
  have le_ticks : (n : ℚ) / m ≤ ticks.toRat := by
    rw [value]
    exact div_le_self (Nat.cast_nonneg n) (by exact_mod_cast hm)
  obtain ⟨quotient, hq⟩ := Decimal.exists_nearest?_of_le (by positivity) le_ticks
  rw [ratio]
  refine ⟨quotient, Decimal.div_eq_ok_iff.2 ⟨?_, by rwa [ratio]⟩,
    Decimal.floor_toRat_of_nearest?_ratio cash_lt hm price_lt hq⟩
  exact fun e => price_rat.ne' (Decimal.magnitude_eq_zero_iff.1 e)

/-- For cash and a price of less than `10 ^ 28` ticks the rounded quotient has the whole part of the
exact one, and the units bought are as many, or one. The cash pays for all of them unless it is one,
and for no more. -/
theorem affordableUnits_eq_floor (cash_pos : cash.IsPositive) (price_pos : price.IsPositive)
    (cash_tick : OnTick scale cash.toRat) (price_tick : OnTick scale price.toRat)
    (cash_lt : cash.toRat * 10 ^ scale < 10 ^ 28) (price_lt : price.toRat * 10 ^ scale < 10 ^ 28) :
    ∃ quotient units, ∃ count : ℕ, cash.div price = .ok quotient ∧
      ⌊quotient.toRat⌋ = ⌊cash.toRat / price.toRat⌋ ∧
      affordableUnits cash price = .ok units ∧ units.toRat = count ∧
      count = max 1 ⌊cash.toRat / price.toRat⌋₊ ∧ 1 ≤ count ∧
      (count * price.toRat ≤ cash.toRat ∨ count = 1) ∧
      cash.toRat < (count + 1) * price.toRat := by
  obtain ⟨quotient, divided, floor⟩ :=
    exists_quotient cash_pos price_pos cash_tick price_tick cash_lt price_lt
  have price_rat := Decimal.isPositive_iff.1 price_pos
  have nonneg : 0 ≤ cash.toRat / price.toRat :=
    div_nonneg (Decimal.isPositive_iff.1 cash_pos).le price_rat.le
  have whole : quotient.floor.toRat = (⌊cash.toRat / price.toRat⌋₊ : ℚ) := by
    rw [Decimal.toRat_floor, floor, ← natCast_floor_eq_intCast_floor nonneg]
  refine ⟨quotient, max quotient.floor .one, max 1 ⌊cash.toRat / price.toRat⌋₊, divided, floor,
    ?_, ?_, rfl, le_max_left _ _, ?_, ?_⟩
  · unfold affordableUnits
    rw [if_neg (not_not.2 price_pos)]
    exact bind_eq_ok_iff.2 ⟨quotient, divided, rfl⟩
  · rw [Decimal.toRat_max, whole, Decimal.toRat_one, max_comm, Nat.cast_max, Nat.cast_one]
  · rcases Nat.eq_zero_or_pos ⌊cash.toRat / price.toRat⌋₊ with zero | positive
    · exact .inr (by rw [zero, max_eq_left (Nat.zero_le 1)])
    · left
      rw [max_eq_right positive, ← le_div_iff₀ price_rat]
      exact Nat.floor_le nonneg
  · rw [← div_lt_iff₀ price_rat]
    have le : (⌊cash.toRat / price.toRat⌋₊ : ℚ) ≤ (max 1 ⌊cash.toRat / price.toRat⌋₊ : ℕ) := by
      exact_mod_cast le_max_right _ _
    linarith [Nat.lt_floor_add_one (cash.toRat / price.toRat)]

/-- A hundredth less than three times the price. -/
theorem affordableUnits_below_three :
    let cash : Decimal := ⟨false, 9999999999999999999999999998, 2, by decide, by decide⟩
    let price : Decimal := ⟨false, 3333333333333333333333333333, 2, by decide, by decide⟩
    (cash.IsPositive ∧ price.IsPositive ∧ OnTick 2 cash.toRat ∧ OnTick 2 price.toRat ∧
      cash.toRat * 10 ^ 2 < 10 ^ 28 ∧ price.toRat * 10 ^ 2 < 10 ^ 28) ∧
      ⌊cash.toRat / price.toRat⌋₊ = 2 ∧
      ∃ quotient units, ∃ count : ℕ, cash.div price = .ok quotient ∧
        ⌊quotient.toRat⌋ = ⌊cash.toRat / price.toRat⌋ ∧
        affordableUnits cash price = .ok units ∧ units.toRat = count ∧
        count = max 1 ⌊cash.toRat / price.toRat⌋₊ ∧ 1 ≤ count ∧
        (count * price.toRat ≤ cash.toRat ∨ count = 1) ∧
        cash.toRat < (count + 1) * price.toRat := by
  intro cash price
  have positive : cash.IsPositive ∧ price.IsPositive := by decide +kernel
  have ticks : OnTick 2 cash.toRat ∧ OnTick 2 price.toRat :=
    ⟨Decimal.onTick_toRat cash, Decimal.onTick_toRat price⟩
  have small : cash.toRat * 10 ^ 2 < 10 ^ 28 ∧ price.toRat * 10 ^ 2 < 10 ^ 28 := by decide +kernel
  have two : ⌊cash.toRat / price.toRat⌋₊ = 2 := by
    have quotient : 0 ≤ cash.toRat / price.toRat ∧ 2 ≤ cash.toRat / price.toRat ∧
        cash.toRat / price.toRat < 3 := by decide +kernel
    exact (Nat.floor_eq_iff quotient.1).2 ⟨quotient.2.1, by norm_num; exact quotient.2.2⟩
  exact ⟨⟨positive.1, positive.2, ticks.1, ticks.2, small⟩, two,
    affordableUnits_eq_floor positive.1 positive.2 ticks.1 ticks.2 small.1 small.2⟩

end Units
end Backtest
