/-
The curve at the entry of a trade. The position is opened at the close, so the exact value there is
the equity at the bar before. The curve multiplies that by the entry price, divides the product by it
again and rounds both results. So it keeps the equity up to these two roundings, and all of it where
the product is not rounded, as for the first trade, or no more coarsely than the quotient
(`EntryRounding`). A price of few digits below one can take the last digits (`equity_lost_at_entry`).
-/
import Backtest.Proofs.Decimal.Error
import Backtest.Proofs.Equity.Valuation
import Backtest.Series.Basic

namespace Backtest

/-- The value at an entry, against the equity before it: the product with the price and the quotient
by the price are rounded, and the value differs by these two roundings at most. -/
structure EntryRounding (before price grown value : Decimal) : Prop where
  product : before.mul price = .ok grown
  quotient : grown.div price = .ok value
  near : |value.toRat - before.toRat| ≤ (grown.lastPlace / price.toRat + value.lastPlace) / 2
  ofExactProduct : grown.toRat = before.toRat * price.toRat → value.toRat = before.toRat
  ofFineProduct : before.scale ≤ value.scale → grown.lastPlace / price.toRat ≤ value.lastPlace →
    value.toRat = before.toRat
  ofOne : before.toRat = 1 → value.toRat = 1

theorem EntryRounding.of_ok {before price grown value : Decimal} (hp : price.IsPositive)
    (hg : before.mul price = .ok grown) (hv : grown.div price = .ok value) :
    EntryRounding before price grown value where
  product := hg
  quotient := hv
  near := Decimal.abs_toRat_sub_le_of_price hp hg hv
  ofExactProduct := Decimal.toRat_eq_of_exact_product hv
  ofFineProduct := Decimal.toRat_eq_of_lastPlace_le hp hg hv
  ofOne one := by
    -- once the price is an amount, so that it is not rounded
    have product := Decimal.mul_eq_ok_iff.1 hg
    rw [one, one_mul] at product
    rw [← one]
    refine Decimal.toRat_eq_of_exact_product hv ?_
    rw [one, one_mul]
    exact (Decimal.isNearest_of_nearest? product).toRat_eq_of_toRat

theorem TradeSequence.spans_entry {closes : List Decimal} {trades : List Trade} {t : Trade}
    (h : TradeSequence closes trades) (ht : t ∈ trades) :
    t.Spans (closes.length - 1) t.entry.index :=
  ⟨Nat.le_refl _, ((h.pending (List.Sublist.refl trades)).forward t ht).1⟩

/-- At the entry of every trade that the curve of a simulation shows, the equity before the entry (one
unit of capital at the first bar) is kept up to the rounding of a product and a quotient. -/
theorem equity_at_entry {signals : Signals} {cash : Decimal} {policy : OpenPositionPolicy}
    {series : Series} {curve : List Decimal} {r : TradeRecord} {t : Trade}
    (hr : TradeRecord.simulate signals cash series.closes = .ok r)
    (hc : equityCurve policy r series.closes = .ok curve) (ht : t ∈ r.trades)
    (shown : t.exit ≠ none ∨ policy = .markToMarket) :
    ∃ before grown value, equityBefore? curve t.entry.index = some before ∧
      curve[t.entry.index]? = some value ∧ EntryRounding before t.entry.price grown value := by
  have sequence := (TradeRecord.greedySchedule_of_simulate hr).toTradeSequence
  have valued := valuation_of_equityFrom sequence List.filter_sublist hc
  obtain ⟨before, close, grown, value, hb, price, hg, hv, hcurve⟩ := valued.held t
    (TradeRecord.mem_shown_iff.2 ⟨ht, shown⟩) t.entry.index (sequence.spans_entry ht)
  rw [sequence.entryPrice t ht] at price
  cases price
  have positive : t.entry.price.IsPositive :=
    Series.isPositive_of_mem_closes (List.mem_of_getElem? (sequence.entryPrice t ht))
  exact ⟨before, grown, value, hb, hcurve, .of_ok positive hg hv⟩

/-- A third of the capital is left after a trade from three to one. Entered at a tenth, the last of
its 28 digits is lost. -/
theorem equity_lost_at_entry :
    let tenth : Decimal := ⟨false, 1, 1, by decide, by decide⟩
    let three : Decimal := ⟨false, 3, 0, by decide, by decide⟩
    let bar (second : Int) (close : Decimal) : Bar :=
      ⟨⟨second, 0⟩, close, close, close, close, .one⟩
    let signals : Signals := ⟨fun _ => true, fun index => index == 1⟩
    let series : Series := ⟨"S", [bar 0 three, bar 1 .one, bar 2 tenth], by decide, by decide⟩
    let r : TradeRecord := ⟨⟨false, 33, 0, by decide, by decide⟩,
      [⟨⟨0, three⟩, some ⟨1, .one⟩⟩, ⟨⟨2, tenth⟩, none⟩]⟩
    TradeRecord.simulate signals .hundred series.closes = .ok r ∧
      ∃ curve before value, equityCurve .markToMarket r series.closes = .ok curve ∧
        equityBefore? curve 2 = some before ∧ curve[2]? = some value ∧
        before.toRat = 3333333333333333333333333333 / 10 ^ 28 ∧
        value.toRat = 3333333333333333333333333330 / 10 ^ 28 ∧ value.toRat ≠ before.toRat := by
  intro tenth three bar signals series r
  have hr : TradeRecord.simulate signals .hundred series.closes = .ok r := by decide +kernel
  have values : (equityCurve .markToMarket r series.closes).toOption.map
      (fun curve => ((equityBefore? curve 2).map Decimal.toRat, curve[2]?.map Decimal.toRat)) =
      some (some (3333333333333333333333333333 / 10 ^ 28),
        some (3333333333333333333333333330 / 10 ^ 28)) := by decide +kernel
  obtain ⟨curve, hc, shape⟩ := exists_of_toOption_map values
  obtain ⟨hb, hv⟩ := Prod.mk.inj shape
  obtain ⟨before, hb, before_value⟩ := Option.map_eq_some_iff.1 hb
  obtain ⟨value, hv, value_value⟩ := Option.map_eq_some_iff.1 hv
  refine ⟨hr, curve, before, value, hc, hb, hv, before_value, value_value, ?_⟩
  rw [before_value, value_value]
  norm_num

/-- Entered at 3.1 instead, the product with the price has more digits than fit, too, but the equity
before the second trade is kept to the last digit. -/
theorem equity_at_entry_of_two_trades :
    let price : Decimal := ⟨false, 31, 1, by decide, by decide⟩
    let three : Decimal := ⟨false, 3, 0, by decide, by decide⟩
    let bar (second : Int) (close : Decimal) : Bar :=
      ⟨⟨second, 0⟩, close, close, close, close, .one⟩
    let signals : Signals := ⟨fun _ => true, fun index => index == 1⟩
    let series : Series := ⟨"S", [bar 0 three, bar 1 .one, bar 2 price], by decide, by decide⟩
    let t : Trade := ⟨⟨2, price⟩, none⟩
    let r : TradeRecord := ⟨⟨false, 33, 0, by decide, by decide⟩,
      [⟨⟨0, three⟩, some ⟨1, .one⟩⟩, t]⟩
    (TradeRecord.simulate signals .hundred series.closes = .ok r ∧ t ∈ r.trades ∧
      (t.exit ≠ none ∨ OpenPositionPolicy.markToMarket = .markToMarket)) ∧
      ∃ curve, equityCurve .markToMarket r series.closes = .ok curve ∧
        (curve[2]?.map Decimal.toRat = some (3333333333333333333333333333 / 10 ^ 28) ∧
          curve[1]?.map Decimal.toRat = some (3333333333333333333333333333 / 10 ^ 28)) ∧
        ∃ before grown value, equityBefore? curve t.entry.index = some before ∧
          curve[t.entry.index]? = some value ∧ EntryRounding before t.entry.price grown value := by
  intro price three bar signals series t r
  have hr : TradeRecord.simulate signals .hundred series.closes = .ok r := by decide +kernel
  have values : (equityCurve .markToMarket r series.closes).toOption.map
      (fun curve => (curve[2]?.map Decimal.toRat, curve[1]?.map Decimal.toRat)) =
      some (some (3333333333333333333333333333 / 10 ^ 28),
        some (3333333333333333333333333333 / 10 ^ 28)) := by decide +kernel
  obtain ⟨curve, hc, shape⟩ := exists_of_toOption_map values
  have ht : t ∈ r.trades := List.mem_cons_of_mem _ (List.mem_singleton_self t)
  exact ⟨⟨hr, ht, .inr rfl⟩, curve, hc, Prod.mk.inj shape, equity_at_entry hr hc ht (.inr rfl)⟩

end Backtest
