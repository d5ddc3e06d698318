/-
What a run decides depends on the closes of its series alone. Two runs of one definition over the
same closes have the same trades and the same curve, whatever the cash and whatever else is said of
the bars, so their reports differ at most in the symbol and in the amounts of money. Stage by stage:
the strategy made ready is the same; the trades are the greedy schedule of its signals, of which
there is only one; the curve reads the trades and no quantity; and of the cash a report needs only
that there is some.
-/
import Backtest.Proofs.Equity.Figures
import Backtest.Proofs.Run.Stages

namespace Backtest

/-! ## Trades without their quantity -/

namespace TradeRecord

variable {r r' : TradeRecord}

/-- The cash fixes the quantity and no trade. -/
theorem trades_eq_of_simulate {signals : Signals} {cash cash' : Decimal} {closes : List Decimal}
    (h : simulate signals cash closes = .ok r) (h' : simulate signals cash' closes = .ok r') :
    r.trades = r'.trades :=
  (greedySchedule_of_simulate h).unique (greedySchedule_of_simulate h')

theorem completed_congr (same : r.trades = r'.trades) : r.completed = r'.completed := by
  unfold completed
  rw [same]

theorem completedCount_congr (same : r.trades = r'.trades) :
    r.completedCount = r'.completedCount := by
  unfold completedCount
  rw [completed_congr same]

theorem winningCount_congr (same : r.trades = r'.trades) : r.winningCount = r'.winningCount := by
  unfold winningCount
  rw [completed_congr same]

end TradeRecord

variable {r r' : TradeRecord}

/-- A curve shows the trades of a record, not their quantity. -/
theorem equityCurve_congr (same : r.trades = r'.trades) (policy : OpenPositionPolicy)
    (closes : List Decimal) : equityCurve policy r closes = equityCurve policy r' closes := by
  unfold equityCurve TradeRecord.shown
  rw [same]

namespace Report

theorem winRate_congr (same : r.trades = r'.trades) : winRate r = winRate r' := by
  unfold winRate
  rw [TradeRecord.completedCount_congr same, TradeRecord.winningCount_congr same]

/-- Reports on one curve and the same trades, each for some cash, differ in the symbol and in the
amounts of money only. -/
theorem Outcome.eq_of_trades {strategy symbol symbol' : String} {curve : List Decimal}
    {cash cash' : Decimal} {report report' : Report}
    (h : Outcome strategy symbol curve r cash report)
    (h' : Outcome strategy symbol' curve r' cash' report') (same : r.trades = r'.trades)
    (some_cash : cash.IsPositive) (some_cash' : cash'.IsPositive) :
    report' = { report with
      symbol := symbol', profit := report'.profit, returnPercent := report'.returnPercent } := by
  -- a report of nothing is for want of bars, of trades or of cash
  have busy {trades : List Trade} {cash last : Decimal} (ends : curve.getLast? = some last)
      (traded : trades ≠ []) (positive : cash.IsPositive) :
      ¬ (curve = [] ∨ trades = [] ∨ ¬ cash.IsPositive) := by
    rintro (none | none | poor)
    · rw [none] at ends
      cases ends
    · exact traded none
    · exact poor positive
  cases h with
  | nothing idle =>
    cases h' with
    | nothing => rfl
    | figures ends traded => exact absurd idle (busy ends (same ▸ traded) some_cash)
  | figures ends traded positive earned won fell percent =>
    cases h' with
    | nothing idle => exact absurd idle (busy ends (same ▸ traded) some_cash')
    | figures ends' traded' positive' earned' won' fell' percent' =>
      rw [winRate_congr same] at won
      cases won.symm.trans won'
      cases fell.symm.trans fell'
      cases percent.symm.trans percent'
      simp only [TradeRecord.completedCount_congr same]

end Report

/-! ## Runs -/

namespace Run

/-- Capital and what bars say besides their closes influence no decision: a run over a series with
the same closes and with other cash is the same run, but for the quantity traded, the profit, the
return, and the symbol. -/
theorem eq_of_closes {d : Definition} {series series' : Series} {cash cash' : Decimal}
    {policy : OpenPositionPolicy} {run run' : Run}
    (h : ofDefinition d series cash policy = .ok run)
    (h' : ofDefinition d series' cash' policy = .ok run')
    (closes : series'.closes = series.closes) :
    run' = { run with
      report := { run.report with
        symbol := series'.symbol, profit := run'.report.profit,
        returnPercent := run'.report.returnPercent },
      record := { run.record with quantity := run'.record.quantity } } := by
  obtain ⟨s, stages⟩ := exists_stages h
  obtain ⟨s', stages'⟩ := exists_stages h'
  have prepared := stages'.prepared
  have simulated := stages'.simulated
  have valued := stages'.valued
  rw [closes] at prepared simulated valued
  cases stages.prepared.symm.trans prepared
  have trades := TradeRecord.trades_eq_of_simulate stages.simulated simulated
  have curve : run.curve = run'.curve := by
    rw [← equityCurve_congr trades] at valued
    exact Except.ok.inj (stages.valued.symm.trans valued)
  have outcome := Report.outcome_of_ofRun stages.reported
  have outcome' := Report.outcome_of_ofRun stages'.reported
  rw [← curve] at outcome'
  have report := outcome.eq_of_trades outcome' trades stages.positive stages'.positive
  calc run' = ⟨run'.report, ⟨run'.record.quantity, run'.record.trades⟩, run'.curve⟩ := rfl
    _ = _ := by rw [← trades, ← curve, ← report]

/-- The same three closes at other times, with other prices and volumes around them, once with a
hundred of cash and once with two: the trades and the curve are the same, the money is not. -/
theorem eq_of_closes_of_two_accounts :
    let d : Definition := ⟨"s", "s", "", "", [⟨"buy", some []⟩, ⟨"sell", some []⟩]⟩
    let two : Decimal := ⟨false, 2, 0, by decide, by decide⟩
    let bar (second : Int) (close : Decimal) : Bar :=
      ⟨⟨second, 0⟩, close, close, close, close, .one⟩
    let bar' (second : Int) (close : Decimal) : Bar :=
      ⟨⟨second, 0⟩, .one, .hundred, .zero, close, .hundred⟩
    let series : Series := ⟨"S", [bar 0 .one, bar 1 two, bar 2 .one], by decide, by decide⟩
    let series' : Series := ⟨"T", [bar' 7 .one, bar' 8 two, bar' 9 .one], by decide, by decide⟩
    ∃ run run', ofDefinition d series .hundred .markToMarket = .ok run ∧
      ofDefinition d series' two .markToMarket = .ok run' ∧ series'.closes = series.closes ∧
      (run.record.quantity.text = "100" ∧ run.report.profit.text = "100.00") ∧
      (run'.record.quantity.text = "2" ∧ run'.report.profit.text = "2.00") ∧
      run' = { run with
        report := { run.report with
          symbol := "T", profit := run'.report.profit,
          returnPercent := run'.report.returnPercent },
        record := { run.record with quantity := run'.record.quantity } } := by
  intro d two bar bar' series series'
  have outcome : (ofDefinition d series .hundred .markToMarket).toOption.map
      (fun run => (run.record.quantity.text, run.report.profit.text)) = some ("100", "100.00") := by
    decide +kernel
  have outcome' : (ofDefinition d series' two .markToMarket).toOption.map
      (fun run => (run.record.quantity.text, run.report.profit.text)) = some ("2", "2.00") := by
    decide +kernel
  obtain ⟨run, h, figures⟩ := exists_of_toOption_map outcome
  obtain ⟨run', h', figures'⟩ := exists_of_toOption_map outcome'
  exact ⟨run, run', h, h', rfl, Prod.mk.inj figures, Prod.mk.inj figures', eq_of_closes h h' rfl⟩

end Run
end Backtest
