/-
No lookahead. What a strategy does over the first bars of a series is what it does there over the
whole series: it can be made ready, simulated and valued whenever that is possible over the whole,
and the signals, the trades and the curve are the same as far as the first bars go. The indicators
carry this to the rules, the rules to the signals, the signals to the trades, the trades to the
curve.
-/
import Backtest.Proofs.Equity.Prefix
import Backtest.Proofs.Indicator.Prefix
import Backtest.Proofs.Strategy.Signals

namespace Backtest

/-- The series of the first bars. -/
def Series.firstBars (s : Series) (n : Nat) : Series :=
  ⟨s.symbol, s.bars.take n, fun bar h => s.valid.positive bar (List.mem_of_mem_take h),
    s.valid.ascending.sublist (List.take_sublist n s.bars)⟩

theorem Series.closes_firstBars (s : Series) (n : Nat) :
    (s.firstBars n).closes = s.closes.take n :=
  List.map_take

/-- A strategy made ready for the closes and simulated over them, and the curve of its trades, the
open one marked to market. -/
structure Played (d : Definition) (cash : Decimal) (closes : List Decimal) (s : PreparedStrategy)
    (r : TradeRecord) (curve : List Decimal) : Prop where
  prepared : d.prepare closes = .ok s
  simulated : TradeRecord.simulate s.signals cash closes = .ok r
  valued : equityCurve .markToMarket r closes = .ok curve

/-- The same as one computation. -/
def Definition.play (d : Definition) (cash : Decimal) (closes : List Decimal) :
    Except Failure (PreparedStrategy × TradeRecord × List Decimal) := do
  let s ← d.prepare closes
  let r ← orFault (TradeRecord.simulate s.signals cash closes)
  let curve ← orFault (equityCurve .markToMarket r closes)
  return (s, r, curve)

theorem played_of_play {d : Definition} {cash : Decimal} {closes : List Decimal}
    {s : PreparedStrategy} {r : TradeRecord} {curve : List Decimal}
    (h : d.play cash closes = .ok (s, r, curve)) : Played d cash closes s r curve := by
  obtain ⟨_, hs, h⟩ := bind_eq_ok_iff.1 h
  obtain ⟨_, hr, h⟩ := bind_eq_ok_iff.1 h
  obtain ⟨_, hc, h⟩ := bind_eq_ok_iff.1 h
  cases pure_eq_ok_iff.1 h
  exact ⟨hs, orFault_eq_ok_iff.1 hr, orFault_eq_ok_iff.1 hc⟩

/-! ## Indicators and signals -/

section Signals

variable {closes : List Decimal} {n : Nat}

/-- An indicator that has values over all closes has the same ones over the first closes. -/
theorem Indicator.fresh_take (hn : n ≤ closes.length) {i : Indicator} {values : Values}
    (h : i.values closes = .ok values) {index : Nat} (hi : index < n) :
    fresh (closes.take n) i index = fresh closes i index := by
  rw [fresh_of_values h, fresh_of_values (values_take hn h)]
  unfold Values.at?
  rw [List.getElem?_take_of_lt hi]

/-- A strategy that is ready for all closes can be made ready for the first closes, and calls for
the same there. -/
theorem Definition.prepare_take (hn : n ≤ closes.length) {d : Definition} {s : PreparedStrategy}
    (h : d.prepare closes = .ok s) :
    ∃ s', d.prepare (closes.take n) = .ok s' ∧
      ∀ index < n, ∀ action, s'.calls action index = s.calls action index := by
  obtain ⟨rules, cache, hr, hc, rfl⟩ := Definition.prepare_eq_ok_iff.1 h
  have known := (IndicatorCache.over_of_ensureAll hc).known
  have firsts : ∀ i ∈ Rule.indicators rules, ∃ values, i.values (closes.take n) = .ok values := by
    intro i hi
    obtain ⟨values, hv, -⟩ := known i hi
    exact ⟨values.take n, Indicator.values_take hn hv⟩
  obtain ⟨cache', hc'⟩ := IndicatorCache.exists_ensureAll .empty firsts
  refine ⟨_, Definition.prepare_eq_ok_iff.2 ⟨rules, cache', hr, hc', rfl⟩, ?_⟩
  intro index hi action
  rw [Bool.eq_iff_iff, PreparedStrategy.calls_iff_due hc', PreparedStrategy.calls_iff_due hc]
  refine exists_congr fun r => and_congr_right fun hm => and_congr_right fun _ => ?_
  -- a rule reads no later bar than the one it is asked about
  refine Rule.due_congr (fun i hi' k hk => ?_) hm
  obtain ⟨values, hv, -⟩ := known i hi'
  exact Indicator.fresh_take hn hv (Nat.lt_of_le_of_lt hk hi)

end Signals

/-! ## Runs -/

/-- No lookahead: if a strategy can be played over a series, then over its first bars too, with the
same signals there, the trades as they stand after these bars, the same quantity, and the first
part of the curve. -/
theorem Played.exists_firstBars {d : Definition} {cash : Decimal} {series : Series} {s : PreparedStrategy}
    {r : TradeRecord} {curve : List Decimal} (h : Played d cash series.closes s r curve) {n : Nat}
    (hp : 1 ≤ n) (hn : n ≤ series.length) :
    ∃ s' r' curve', Played d cash (series.firstBars n).closes s' r' curve' ∧
      (∀ index < n, s'.enters index = s.enters index ∧ s'.leaves index = s.leaves index) ∧
      r'.trades = tradesBefore n r.trades ∧ r'.quantity = r.quantity ∧ curve' = curve.take n := by
  rw [← Series.length_closes] at hn
  rw [Series.closes_firstBars]
  obtain ⟨s', hs', calls⟩ := Definition.prepare_take hn h.prepared
  have agree : ∀ index < n, s'.enters index = s.enters index ∧ s'.leaves index = s.leaves index :=
    fun index hi => ⟨calls index hi .buy, calls index hi .sell⟩
  have sequence := (TradeRecord.greedySchedule_of_simulate h.simulated).toTradeSequence
  exact ⟨s', ⟨r.quantity, tradesBefore n r.trades⟩, curve.take n,
    ⟨hs', TradeRecord.simulate_take h.simulated hp hn agree, equityCurve_take sequence hn h.valued⟩,
    agree, rfl, rfl, rfl⟩

/-- Four bars and the first three of them, for a strategy that buys above the average of two bars
and always sells: the exit at the last bar has not happened yet. -/
theorem Played.firstBars_before_exit :
    let d : Definition := ⟨"s", "s", "", "", [
      ⟨"buy", some [⟨⟨"price", []⟩, "greater_than", "indicator", some (.text "sma"),
        [("period", .number (.whole 2))]⟩]⟩,
      ⟨"sell", some []⟩]⟩
    let bar (second : Int) (close : Decimal) : Bar :=
      ⟨⟨second, 0⟩, close, close, close, close, .one⟩
    let series : Series := ⟨"S", [bar 0 .hundred, bar 1 .one, bar 2 .hundred, bar 3 .one],
      by decide, by decide⟩
    ∃ s r curve s' r' curve', Played d .hundred series.closes s r curve ∧
      r.trades = [⟨⟨2, .hundred⟩, some ⟨3, .one⟩⟩] ∧
      Played d .hundred (series.firstBars 3).closes s' r' curve' ∧
      r'.trades = [⟨⟨2, .hundred⟩, none⟩] ∧ curve' = curve.take 3 := by
  intro d bar series
  have outcome : (d.play .hundred series.closes).toOption.map (fun p => p.2.1.trades) =
      some [⟨⟨2, .hundred⟩, some ⟨3, .one⟩⟩] := by decide +kernel
  obtain ⟨⟨s, r, curve⟩, hp, trades⟩ := exists_of_toOption_map outcome
  have played := played_of_play hp
  obtain ⟨s', r', curve', played', -, trades', -, part⟩ :=
    Played.exists_firstBars played (n := 3) (by decide) (by decide)
  rw [show r.trades = _ from trades] at trades'
  exact ⟨s, r, curve, s', r', curve', played, trades, played', trades', part⟩

end Backtest
