/-
The figures of a run that leaves out its open trade. They depend on nothing but the cash and the
prices of the round trips: `TradeFigures.ofRoundTrips` computes them from these alone. What the
closes are while a trade is held, and whether a trade is open at the end, shows in the drawdown at
most; without a round trip not even there, as the curve is flat.
-/
import Backtest.Proofs.Decimal.Zero
import Backtest.Proofs.Equity.Compound
import Backtest.Proofs.Equity.Drawdown
import Backtest.Proofs.Equity.Figures
import Backtest.Proofs.Run.Stages

namespace Backtest

/-! ## Figures of round trips -/

/-- The figures of a report without the drawdown. -/
structure TradeFigures where
  trades : Nat
  profit : Decimal
  returnPercent : Decimal
  winRatePercent : Decimal

def Report.tradeFigures (report : Report) : TradeFigures :=
  ⟨report.trades, report.profit, report.returnPercent, report.winRatePercent⟩

/-- The number of round trips that end above the price at which they began. -/
def winners (trips : List (Decimal × Decimal)) : Nat :=
  trips.countP fun trip => decide (trip.1 < trip.2)

/-- The share of winners in percent, zero without a round trip. -/
def winnerRate (trips : List (Decimal × Decimal)) : Except Fault Decimal :=
  if trips.length = 0 then .ok .zero
  else do
    let scaled ← Decimal.hundred.times (winners trips)
    scaled.part trips.length

/-- What round trips make of the cash. -/
def TradeFigures.ofRoundTrips (cash : Decimal) (trips : List (Decimal × Decimal)) :
    Except Fault TradeFigures := do
  let last ← compound .one trips
  let profit ← (← last.mul cash).sub cash
  let rate ← winnerRate trips
  let gain ← (← profit.div cash).mul .hundred
  return ⟨trips.length, profit.toCents, gain.toCents, rate.toCents⟩

/-! ## Round trips of a record -/

namespace TradeRecord

theorem length_roundTrips (r : TradeRecord) : r.roundTrips.length = r.completedCount := by
  unfold roundTrips completedCount completed
  rw [List.length_filterMap_eq_countP, ← List.countP_eq_length_filter]
  refine List.countP_congr fun t _ => ?_
  unfold Trade.roundTrip? Trade.isClosed
  rw [Option.isSome_map]

theorem winners_roundTrips (r : TradeRecord) : winners r.roundTrips = r.winningCount := by
  unfold winners roundTrips winningCount completed
  rw [List.countP_filterMap, List.filter_filter, ← List.countP_eq_length_filter]
  refine List.countP_congr fun t _ => ?_
  unfold Trade.roundTrip? Trade.isProfitable Trade.isClosed
  cases t.exit <;> simp

theorem winnerRate_roundTrips (r : TradeRecord) : winnerRate r.roundTrips = Report.winRate r := by
  unfold winnerRate Report.winRate
  rw [length_roundTrips, winners_roundTrips]

end TradeRecord

/-! ## Nothing lost and nothing won -/

/-- Without round trips there is nothing to show. -/
theorem TradeFigures.ofRoundTrips_nil {cash : Decimal} (hc : cash.IsPositive)
    (strategy symbol : String) :
    ofRoundTrips cash [] = .ok (Report.empty strategy symbol).tradeFigures := by
  obtain ⟨grown, hg, value⟩ := Decimal.exists_mul_of_toRat_eq_one Decimal.toRat_one cash
  have share := Decimal.div_of_toRat_eq_zero Decimal.toRat_fullZero hc
  have gain := Decimal.mul_of_toRat_eq_zero Decimal.toRat_fullZero .hundred
  have start : compound .one [] = .ok .one := rfl
  have rate : winnerRate [] = .ok .zero := rfl
  unfold ofRoundTrips
  simp only [start, hg, Decimal.sub_of_toRat_eq value, rate, share, gain, bind, Except.bind, pure,
    Except.pure, Decimal.toCents_fullZero]
  rfl

/-- A curve without trades is flat. -/
theorem equityFrom_of_no_trades {lastIndex : Nat} {equity : Decimal} : ∀ (closes : List Decimal)
    (index : Nat), equityFrom lastIndex index equity none [] closes =
      .ok (List.replicate closes.length equity)
  | [], _ => rfl
  | close :: rest, index =>
    equityFrom_cons_eq_ok_iff.2 ⟨equity, none, [], _, .flat fun _ e => (by cases e),
      equityFrom_of_no_trades rest (index + 1), rfl⟩

/-! ## Reports -/

section Reports

variable {strategy symbol : String} {curve : List Decimal} {r : TradeRecord} {cash : Decimal}
variable {report : Report}

/-- If the curve ends with what the round trips make of one unit of capital, the figures are those
of the round trips. -/
theorem Report.Outcome.tradeFigures_eq (h : Outcome strategy symbol curve r cash report)
    (hc : cash.IsPositive) (ends : compound .one r.roundTrips = .ok (curve.getLast?.getD .one))
    (he : curve = [] → r.trades = []) :
    TradeFigures.ofRoundTrips cash r.roundTrips = .ok report.tradeFigures := by
  cases h with
  | nothing idle =>
    have trades : r.trades = [] := by
      rcases idle with none | none | poor
      · exact he none
      · exact none
      · exact absurd hc poor
    have trips : r.roundTrips = [] := by
      unfold TradeRecord.roundTrips
      rw [trades]
      rfl
    rw [trips]
    exact TradeFigures.ofRoundTrips_nil hc strategy symbol
  | @figures last _ _ _ _ _ final _ _ earned won =>
    rw [final, Option.getD_some] at ends
    obtain ⟨⟨grown, hg, hp⟩, share, hs, hgain⟩ := earned
    rw [← TradeRecord.winnerRate_roundTrips] at won
    unfold TradeFigures.ofRoundTrips
    simp only [ends, hg, hp, won, hs, hgain, bind, Except.bind, pure, Except.pure,
      TradeRecord.length_roundTrips]
    rfl

/-- Over a flat curve the report without round trips is the report of nothing. -/
theorem Report.Outcome.eq_empty (h : Outcome strategy symbol curve r cash report)
    (hc : cash.IsPositive) (none : r.roundTrips = [])
    (trades : TradeFigures.ofRoundTrips cash r.roundTrips = .ok report.tradeFigures)
    (flat : drawdown curve = .ok .zero) : report = empty strategy symbol := by
  rw [none, TradeFigures.ofRoundTrips_nil hc strategy symbol] at trades
  have same := Except.ok.inj trades
  cases h with
  | nothing => rfl
  | @figures _ _ _ _ depth fall _ _ _ _ _ fell percent =>
    rw [flat] at fell
    cases fell
    rw [Decimal.mul_of_toRat_eq_zero Decimal.toRat_zero] at percent
    cases percent
    unfold tradeFigures empty at same
    simp only [TradeFigures.mk.injEq] at same
    obtain ⟨count, profit, gain, rate⟩ := same
    unfold empty
    rw [← count, ← profit, ← gain, ← rate, Decimal.toCents_fullZero]

end Reports

/-! ## Runs -/

namespace Run

variable {d : Definition} {series : Series} {cash : Decimal} {s : PreparedStrategy} {run : Run}

theorem Stages.tradeFigures_eq (h : Stages d series cash .exclude s run) :
    TradeFigures.ofRoundTrips cash run.record.roundTrips = .ok run.report.tradeFigures :=
  (Report.outcome_of_ofRun h.reported).tradeFigures_eq h.positive
    (compound_roundTrips h.sequence h.valued) h.trades_of_curve_nil

/-- Without a closed trade the curve that leaves out the open one is flat. -/
theorem Stages.report_eq_empty (h : Stages d series cash .exclude s run)
    (none : run.record.completed = []) : run.report = Report.empty d.name series.symbol := by
  have valued := h.valued
  unfold equityCurve at valued
  rw [TradeRecord.shown_exclude, none, equityFrom_of_no_trades] at valued
  have flat : drawdown run.curve = .ok .zero := by
    rw [← Except.ok.inj valued, drawdown_replicate]
  have trips : run.record.roundTrips = [] := by
    rw [TradeRecord.roundTrips_eq, none]
    rfl
  exact (Report.outcome_of_ofRun h.reported).eq_empty h.positive trips h.tradeFigures_eq flat

/-- The number of trades, profit, return and win rate of a run that leaves out its open trade come
from the cash and the prices of its round trips alone: its equity ends as these compound from one
unit of capital, and the figures are computed from that. Runs with the same cash and the same round
trips have the same figures, and a run without a round trip has the report of nothing. -/
theorem tradeFigures_of_roundTrips (h : ofDefinition d series cash .exclude = .ok run) :
    compound .one run.record.roundTrips = .ok (run.curve.getLast?.getD .one) ∧
    TradeFigures.ofRoundTrips cash run.record.roundTrips = .ok run.report.tradeFigures ∧
    (∀ (d' : Definition) (series' : Series) (run' : Run),
      ofDefinition d' series' cash .exclude = .ok run' →
      run'.record.roundTrips = run.record.roundTrips →
      run'.report.tradeFigures = run.report.tradeFigures) ∧
    (run.record.completed = [] → run.report = Report.empty d.name series.symbol) := by
  obtain ⟨s, stages⟩ := exists_stages h
  have figures := stages.tradeFigures_eq
  refine ⟨compound_roundTrips stages.sequence stages.valued, figures, ?_, stages.report_eq_empty⟩
  intro d' series' run' h' same
  obtain ⟨s', stages'⟩ := exists_stages h'
  have figures' := stages'.tradeFigures_eq
  rw [same, figures] at figures'
  exact (Except.ok.inj figures').symm

/-- A trade that is closed after a bar below its entry price, and another one that stays open: the
figures are those of a run without that bar's fall and without the second trade. -/
theorem tradeFigures_of_one_round_trip :
    let d : Definition := ⟨"s", "s", "", "", [⟨"buy", some []⟩,
      ⟨"sell", some [⟨⟨"price", []⟩, "greater_than", "value", some (.text "2"), []⟩]⟩]⟩
    let half : Decimal := ⟨false, 5, 1, by decide, by decide⟩
    let bar (second : Int) (close : Decimal) : Bar :=
      ⟨⟨second, 0⟩, close, close, close, close, .one⟩
    let series : Series := ⟨"S", [bar 0 .one, bar 1 half, bar 2 .hundred, bar 3 .hundred],
      by decide, by decide⟩
    let series' : Series := ⟨"S", [bar 0 .one, bar 1 .one, bar 2 .hundred], by decide, by decide⟩
    ∃ run run', ofDefinition d series .hundred .exclude = .ok run ∧
      ofDefinition d series' .hundred .exclude = .ok run' ∧
      run.record.trades = [⟨⟨0, .one⟩, some ⟨2, .hundred⟩⟩, ⟨⟨3, .hundred⟩, none⟩] ∧
      run.report.profit.text = "9900.00" ∧
      TradeFigures.ofRoundTrips .hundred [(.one, .hundred)] = .ok run.report.tradeFigures ∧
      run'.report.tradeFigures = run.report.tradeFigures := by
  intro d half bar series series'
  have outcome : (ofDefinition d series .hundred .exclude).toOption.map
      (fun run => (run.record.trades, run.report.profit.text)) =
      some ([⟨⟨0, .one⟩, some ⟨2, .hundred⟩⟩, ⟨⟨3, .hundred⟩, none⟩], "9900.00") := by decide +kernel
  have outcome' : (ofDefinition d series' .hundred .exclude).toOption.map (·.record.roundTrips) =
      some [(.one, .hundred)] := by decide +kernel
  obtain ⟨run, h, shape⟩ := exists_of_toOption_map outcome
  obtain ⟨run', h', trips'⟩ := exists_of_toOption_map outcome'
  obtain ⟨trades, profit⟩ := Prod.mk.inj shape
  have trips : run.record.roundTrips = [(.one, .hundred)] := by
    unfold TradeRecord.roundTrips
    rw [trades]
    rfl
  obtain ⟨-, figures, same, -⟩ := tradeFigures_of_roundTrips h
  exact ⟨run, run', h, h', trades, profit, trips ▸ figures,
    same d series' run' h' (trips'.trans trips.symm)⟩

end Run
end Backtest
