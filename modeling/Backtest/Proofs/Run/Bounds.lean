/-
Bounds on the figures of a run. Rates lie between none and a hundred percent, no more than the cash
is lost, and equity is never below zero, for every strategy, series and policy and with every
intermediate result rounded.
-/
import Backtest.Proofs.Decimal.Cents
import Backtest.Proofs.Equity.Drawdown
import Backtest.Proofs.Equity.Figures
import Backtest.Proofs.Run.Stages

namespace Backtest

/-- The bounds on the figures of a report about trades with the given cash. -/
structure Report.Bounded (report : Report) (r : TradeRecord) (cash : Decimal) : Prop where
  winRate : .zero ≤ report.winRatePercent ∧ report.winRatePercent ≤ .hundred
  drawdown : .zero ≤ report.drawdownPercent ∧ report.drawdownPercent ≤ .hundred
  gain : -Decimal.hundred ≤ report.returnPercent
  profit : (-cash).toCents ≤ report.profit
  trades : report.trades = (r.trades.filter fun t => t.exit ≠ none).length

namespace Decimal

/-- Figures of amounts between none and a hundred percent are so too. -/
theorem toCents_bounds {d : Decimal} (h : .zero ≤ d ∧ d ≤ .hundred) :
    .zero ≤ d.toCents ∧ d.toCents ≤ .hundred := by
  have hundred : hundred.toCents.toRat = hundred.toRat :=
    toRat_toCents_of_cents 10000 (by rw [toRat_hundred]; norm_num)
  have lower := toCents_mono h.1
  have upper := toCents_mono h.2
  rw [le_iff] at lower upper ⊢
  rw [toRat_toCents_zero] at lower
  rw [hundred] at upper
  exact ⟨by rw [toRat_zero]; exact lower, upper⟩

/-- A loss of the cash at most is shown as one of a hundred percent at most. -/
theorem neg_hundred_le_toCents {d : Decimal} (h : -hundred ≤ d) : -hundred ≤ d.toCents := by
  have whole : (-hundred).toCents.toRat = (-hundred).toRat :=
    toRat_toCents_of_cents (-10000) (by rw [toRat_neg, toRat_hundred]; norm_num)
  rw [le_iff, ← whole]
  exact toCents_mono h

end Decimal

theorem TradeRecord.completedCount_eq (r : TradeRecord) :
    r.completedCount = (r.trades.filter fun t => t.exit ≠ none).length := by
  unfold completedCount completed
  congr 1
  refine List.filter_congr fun t _ => ?_
  unfold Trade.isClosed
  cases t.exit <;> rfl

/-- The report of nothing is within the bounds if no trade was closed. -/
theorem Report.bounded_empty (strategy symbol : String) {r : TradeRecord} {cash : Decimal}
    (hc : cash.IsPositive) (hr : r.completedCount = 0) :
    (empty strategy symbol).Bounded r cash := by
  have zero := Decimal.toCents_bounds (d := .zero)
    ⟨Decimal.le_iff.2 le_rfl, by
      rw [Decimal.le_iff, Decimal.toRat_zero, Decimal.toRat_hundred]
      norm_num⟩
  have loss : -cash ≤ Decimal.zero := by
    rw [Decimal.le_iff, Decimal.toRat_neg, Decimal.toRat_zero]
    linarith [Decimal.isPositive_iff.1 hc]
  refine ⟨zero, zero, Decimal.neg_hundred_le_toCents ?_, Decimal.toCents_mono loss, ?_⟩
  · rw [Decimal.le_iff, Decimal.toRat_neg, Decimal.toRat_hundred, Decimal.toRat_zero]
    norm_num
  · rw [← TradeRecord.completedCount_eq, hr]
    rfl

/-- Every report of a curve above zero is within the bounds. -/
theorem Report.Outcome.bounded {strategy symbol : String} {curve : List Decimal} {r : TradeRecord}
    {cash : Decimal} {report : Report} (h : Outcome strategy symbol curve r cash report)
    (hc : cash.IsPositive) (hn : ∀ equity ∈ curve, 0 ≤ equity.toRat)
    (he : curve = [] → r.trades = []) : report.Bounded r cash := by
  cases h with
  | nothing idle =>
    have trades : r.trades = [] := by
      rcases idle with none | none | poor
      · exact he none
      · exact none
      · exact absurd hc poor
    refine bounded_empty strategy symbol hc ?_
    rw [TradeRecord.completedCount_eq, trades]
    rfl
  | figures ends traded positive earned won fell percent =>
    obtain ⟨profit, gain⟩ := earned.bounds (hn _ (List.mem_of_getLast? ends)) hc
    exact ⟨Decimal.toCents_bounds (winRate_bounds won),
      Decimal.toCents_bounds (percent_bounds (drawdown_mem_unit hn fell) percent),
      Decimal.neg_hundred_le_toCents gain, Decimal.toCents_mono profit, r.completedCount_eq⟩

/-- The figures of every run are within their bounds, its curve has one value per bar, and none of
them is below zero. -/
theorem Run.figures_bounded {d : Definition} {series : Series} {cash : Decimal}
    {policy : OpenPositionPolicy} {run : Run} (h : ofDefinition d series cash policy = .ok run) :
    run.report.Bounded run.record cash ∧ run.curve.length = series.length ∧
      ∀ equity ∈ run.curve, .zero ≤ equity := by
  obtain ⟨s, stages⟩ := exists_stages h
  refine ⟨?_, stages.length_curve, fun equity he => ?_⟩
  · exact (Report.outcome_of_ofRun stages.reported).bounded stages.positive stages.curve_nonneg
      stages.trades_of_curve_nil
  · rw [Decimal.le_iff, Decimal.toRat_zero]
    exact stages.curve_nonneg equity he

/-- A run that loses all but a part of the cash in its only trade, and all but that of its peak. -/
theorem Run.figures_bounded_of_loss :
    let d : Definition := ⟨"s", "s", "", "", [⟨"buy", some []⟩, ⟨"sell", some []⟩]⟩
    let bar (second : Int) (close : Decimal) : Bar :=
      ⟨⟨second, 0⟩, close, close, close, close, .one⟩
    let series : Series := ⟨"S", [bar 0 .hundred, bar 1 .one], by decide, by decide⟩
    ∃ run, ofDefinition d series .hundred .exclude = .ok run ∧
      (run.report.profit.text = "-99.00" ∧ run.report.drawdownPercent.text = "99.00") ∧
      run.report.Bounded run.record .hundred ∧ run.curve.length = 2 ∧
      ∀ equity ∈ run.curve, .zero ≤ equity := by
  intro d bar series
  have outcome : (ofDefinition d series .hundred .exclude).toOption.map
      (fun run => (run.report.profit.text, run.report.drawdownPercent.text)) =
      some ("-99.00", "99.00") := by decide +kernel
  obtain ⟨run, hr, figures⟩ := exists_of_toOption_map outcome
  exact ⟨run, hr, Prod.mk.inj figures, figures_bounded hr⟩

end Backtest
