/-
More gives no less. A trade that is left at a higher price, or entered with more equity, never ends
with less equity, and more equity at the end is never shown as less profit: every step is rounded, and
rounding keeps the order. Trades left at the price of their entry (`compound_even`) are the case that
all others are measured against; they make one of one, and no profit.
-/
import Backtest.Proofs.Decimal.Zero
import Backtest.Proofs.Equity.Compound
import Backtest.Proofs.Equity.Figures

namespace Backtest

/-! ## Round trips -/

/-- Entered at the same price, the second round trip ends no lower than the first. -/
def EndsNoLower (trip trip' : Decimal × Decimal) : Prop :=
  trip.1 = trip'.1 ∧ trip.2 ≤ trip'.2

/-- The entry and the exit of the round trip have positive prices. -/
def PositivePrices (trip : Decimal × Decimal) : Prop :=
  trip.1.IsPositive ∧ trip.2.IsPositive

/-- More equity, and exits at higher prices, never give less. -/
theorem compound_mono : ∀ {trips trips' : List (Decimal × Decimal)}
    {equity equity' last last' : Decimal}, List.Forall₂ EndsNoLower trips trips' →
    (∀ trip ∈ trips, PositivePrices trip) → 0 ≤ equity.toRat → equity ≤ equity' →
    compound equity trips = .ok last → compound equity' trips' = .ok last' → last ≤ last'
  | [], _, _, _, _, _, .nil, _, _, he, h, h' => by
    cases h
    cases h'
    exact he
  | (entry, exit) :: trips, (_, exit') :: trips', equity, equity', _, _, .cons ⟨rfl, higher⟩ later,
      prices, nonneg, he, h, h' => by
    obtain ⟨⟨entry_positive, exit_positive⟩, prices⟩ := List.forall_mem_cons.1 prices
    obtain ⟨grown, value, hg, hv, h⟩ := compound_cons_eq_ok_iff.1 h
    obtain ⟨grown', value', hg', hv', h'⟩ := compound_cons_eq_ok_iff.1 h'
    have entry_pos := Decimal.isPositive_iff.1 entry_positive
    have exit_pos := Decimal.isPositive_iff.1 exit_positive
    have products : equity.toRat * exit.toRat ≤ equity'.toRat * exit'.toRat :=
      mul_le_mul he higher exit_pos.le (nonneg.trans he)
    have grown_le := Decimal.toRat_mono_of_nearest? (Decimal.mul_eq_ok_iff.1 hg)
      (Decimal.mul_eq_ok_iff.1 hg') products
    have value_le := Decimal.toRat_mono_of_nearest? (Decimal.div_eq_ok_iff.1 hv).2
      (Decimal.div_eq_ok_iff.1 hv').2 (div_le_div_of_nonneg_right grown_le entry_pos.le)
    have grown_nonneg := Decimal.nonneg_of_nearest? (Decimal.mul_eq_ok_iff.1 hg)
      (mul_nonneg nonneg exit_pos.le)
    have value_nonneg := Decimal.nonneg_of_nearest? (Decimal.div_eq_ok_iff.1 hv).2
      (div_nonneg grown_nonneg entry_pos.le)
    exact compound_mono later prices value_nonneg value_le h h'

/-- The round trip that ends at the price of its entry. -/
def evenTrip (trip : Decimal × Decimal) : Decimal × Decimal :=
  (trip.1, trip.1)

theorem compound_even : ∀ {trips : List (Decimal × Decimal)} {equity : Decimal},
    (∀ trip ∈ trips, PositivePrices trip) → equity.toRat = 1 →
    ∃ last, compound equity (trips.map evenTrip) = .ok last ∧ last.toRat = 1
  | [], equity, _, one => ⟨equity, rfl, one⟩
  | (entry, exit) :: trips, equity, prices, one => by
    obtain ⟨⟨positive, -⟩, prices⟩ := List.forall_mem_cons.1 prices
    obtain ⟨grown, hg, same⟩ := Decimal.exists_mul_of_toRat_eq_one one entry
    obtain ⟨value, hv, one⟩ := Decimal.exists_div_of_toRat_eq same positive
    obtain ⟨last, h, one⟩ := compound_even prices one
    exact ⟨last, compound_cons_eq_ok_iff.2 ⟨grown, value, hg, hv, h⟩, one⟩

section OneUnit

variable {trips : List (Decimal × Decimal)} {last : Decimal}

/-- Without a winner, one unit of capital does not grow. -/
theorem compound_le_one (prices : ∀ trip ∈ trips, PositivePrices trip)
    (losers : ∀ trip ∈ trips, trip.2 ≤ trip.1) (h : compound .one trips = .ok last) :
    last ≤ .one := by
  obtain ⟨even, he, one⟩ := compound_even prices Decimal.toRat_one
  have no_lower : List.Forall₂ EndsNoLower trips (trips.map evenTrip) :=
    List.forall₂_map_right_iff.2 (List.forall₂_same.2 fun trip ht => ⟨rfl, losers trip ht⟩)
  have le := compound_mono no_lower prices (Decimal.toRat_one ▸ zero_le_one)
    (Decimal.le_iff.2 le_rfl) h he
  rw [Decimal.le_iff, one] at le
  rw [Decimal.le_iff, Decimal.toRat_one]
  exact le

/-- Without a loser, one unit of capital does not shrink. -/
theorem one_le_compound (prices : ∀ trip ∈ trips, PositivePrices trip)
    (winners : ∀ trip ∈ trips, trip.1 ≤ trip.2) (h : compound .one trips = .ok last) :
    .one ≤ last := by
  obtain ⟨even, he, one⟩ := compound_even prices Decimal.toRat_one
  have no_lower : List.Forall₂ EndsNoLower (trips.map evenTrip) trips :=
    List.forall₂_map_left_iff.2 (List.forall₂_same.2 fun trip ht => ⟨rfl, winners trip ht⟩)
  have even_prices : ∀ trip ∈ trips.map evenTrip, PositivePrices trip :=
    List.forall_mem_map.2 fun trip ht => ⟨(prices trip ht).1, (prices trip ht).1⟩
  have le := compound_mono no_lower even_prices (Decimal.toRat_one ▸ zero_le_one)
    (Decimal.le_iff.2 le_rfl) he h
  rw [Decimal.le_iff, one] at le
  rw [Decimal.le_iff, Decimal.toRat_one]
  exact le

end OneUnit

/-! ## Earnings -/

namespace Earnings

variable {last last' cash profit profit' gain gain' : Decimal}

/-- More equity at the end never makes less profit, neither in cash nor in percent. -/
theorem mono (h : Earnings last cash profit gain) (h' : Earnings last' cash profit' gain')
    (hc : cash.IsPositive) (hl : last ≤ last') : profit ≤ profit' ∧ gain ≤ gain' := by
  have positive := Decimal.isPositive_iff.1 hc
  obtain ⟨⟨grown, hg, hp⟩, share, hs, hgain⟩ := h
  obtain ⟨⟨grown', hg', hp'⟩, share', hs', hgain'⟩ := h'
  have grown_le := Decimal.toRat_mono_of_nearest? (Decimal.mul_eq_ok_iff.1 hg)
    (Decimal.mul_eq_ok_iff.1 hg') (mul_le_mul_of_nonneg_right hl positive.le)
  have profit_le := Decimal.toRat_mono_of_nearest? (Decimal.sub_eq_ok_iff.1 hp)
    (Decimal.sub_eq_ok_iff.1 hp') (sub_le_sub_right grown_le cash.toRat)
  have share_le := Decimal.toRat_mono_of_nearest? (Decimal.div_eq_ok_iff.1 hs).2
    (Decimal.div_eq_ok_iff.1 hs').2 (div_le_div_of_nonneg_right profit_le positive.le)
  refine ⟨profit_le, Decimal.toRat_mono_of_nearest? (Decimal.mul_eq_ok_iff.1 hgain)
    (Decimal.mul_eq_ok_iff.1 hgain') (mul_le_mul_of_nonneg_right share_le ?_)⟩
  rw [Decimal.toRat_hundred]
  norm_num

/-- One unit of capital that is still one at the end makes no profit. -/
theorem one (hc : cash.IsPositive) : Earnings .one cash .fullZero .fullZero := by
  obtain ⟨grown, hg, value⟩ := Decimal.exists_mul_of_toRat_eq_one Decimal.toRat_one cash
  exact ⟨⟨grown, hg, Decimal.sub_of_toRat_eq value⟩, .fullZero,
    Decimal.div_of_toRat_eq_zero Decimal.toRat_fullZero hc,
    Decimal.mul_of_toRat_eq_zero Decimal.toRat_fullZero .hundred⟩

theorem nonpos (h : Earnings last cash profit gain) (hc : cash.IsPositive) (hl : last ≤ .one) :
    profit ≤ .zero ∧ gain ≤ .zero := by
  have most := h.mono (one hc) hc hl
  simp only [Decimal.le_iff, Decimal.toRat_fullZero] at most
  simpa only [Decimal.le_iff, Decimal.toRat_zero] using most

theorem nonneg (h : Earnings last cash profit gain) (hc : cash.IsPositive) (hl : .one ≤ last) :
    .zero ≤ profit ∧ .zero ≤ gain := by
  have least := (one hc).mono h hc hl
  simp only [Decimal.le_iff, Decimal.toRat_fullZero] at least
  simpa only [Decimal.le_iff, Decimal.toRat_zero] using least

end Earnings
end Backtest
