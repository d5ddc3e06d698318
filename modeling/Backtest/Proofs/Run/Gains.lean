/-
The sign of the profit. A run that leaves out its open trade shows no gain if none of its closed
trades is a winner, and no loss if none of them is a loser, however many there are and with every
step of the compounding rounded.
-/
import Backtest.Proofs.Decimal.Cents
import Backtest.Proofs.Equity.Order
import Backtest.Proofs.Run.RoundTrips

namespace Backtest

/-! ## Round trips of a record -/

theorem TradeRecord.mem_roundTrips_iff {r : TradeRecord} {trip : Decimal × Decimal} :
    trip ∈ r.roundTrips ↔
      ∃ t ∈ r.trades, ∃ exit, t.exit = some exit ∧ trip = (t.entry.price, exit.price) := by
  unfold roundTrips Trade.roundTrip?
  simp only [List.mem_filterMap, Option.map_eq_some_iff, @eq_comm _ _ trip]

/-- Trades at the closes of a series have positive prices. -/
theorem TradeSequence.positivePrices {series : Series} {r : TradeRecord}
    (h : TradeSequence series.closes r.trades) : ∀ trip ∈ r.roundTrips, PositivePrices trip := by
  intro trip mem
  obtain ⟨t, ht, exit, hx, rfl⟩ := TradeRecord.mem_roundTrips_iff.1 mem
  exact ⟨Series.isPositive_of_mem_closes (List.mem_of_getElem? (h.entryPrice t ht)),
    Series.isPositive_of_mem_closes (List.mem_of_getElem? (h.exitPrice t ht exit hx))⟩

/-- Without a winning trade, no round trip ends above its entry. -/
theorem TradeRecord.exit_le_entry_of_winningCount {r : TradeRecord} (h : r.winningCount = 0) :
    ∀ trip ∈ r.roundTrips, trip.2 ≤ trip.1 := by
  intro trip mem
  rw [← winners_roundTrips] at h
  have lost := List.countP_eq_zero.1 h trip mem
  rw [decide_eq_true_eq, Decimal.lt_iff] at lost
  exact not_lt.1 lost

/-! ## Reports -/

namespace Report.Outcome

variable {strategy symbol : String} {curve : List Decimal} {r : TradeRecord}
variable {cash : Decimal} {report : Report}

/-- Equity that ends at one unit or below is shown as no gain. -/
theorem no_gain (h : Outcome strategy symbol curve r cash report)
    (ends : curve.getLast?.getD .one ≤ .one) :
    report.profit ≤ .zero ∧ report.returnPercent ≤ .zero := by
  cases h with
  | nothing =>
    have zero := Decimal.toCents_nonpos (Decimal.le_iff.2 le_rfl)
    exact ⟨zero, zero⟩
  | figures final _ positive earned _ _ _ =>
    rw [final, Option.getD_some] at ends
    obtain ⟨profit, gain⟩ := earned.nonpos positive ends
    exact ⟨Decimal.toCents_nonpos profit, Decimal.toCents_nonpos gain⟩

/-- Equity that ends at one unit or above is shown as no loss. -/
theorem no_loss (h : Outcome strategy symbol curve r cash report)
    (ends : .one ≤ curve.getLast?.getD .one) :
    .zero ≤ report.profit ∧ .zero ≤ report.returnPercent := by
  cases h with
  | nothing =>
    have zero := Decimal.toCents_nonneg (Decimal.le_iff.2 le_rfl)
    exact ⟨zero, zero⟩
  | figures final _ positive earned _ _ _ =>
    rw [final, Option.getD_some] at ends
    obtain ⟨profit, gain⟩ := earned.nonneg positive ends
    exact ⟨Decimal.toCents_nonneg profit, Decimal.toCents_nonneg gain⟩

end Report.Outcome

/-! ## Runs -/

namespace Run

/-- A run that leaves out its open trade shows no gain, neither in cash nor in percent, if none of its
closed trades is a winner, and no loss if each of them is closed at the price of its entry or above. -/
theorem gain_has_sign_of_trades {d : Definition} {series : Series} {cash : Decimal} {run : Run}
    (h : ofDefinition d series cash .exclude = .ok run) :
    (run.record.winningCount = 0 →
      run.report.profit ≤ .zero ∧ run.report.returnPercent ≤ .zero) ∧
    ((∀ t ∈ run.record.trades, ∀ exit, t.exit = some exit → t.entry.price ≤ exit.price) →
      .zero ≤ run.report.profit ∧ .zero ≤ run.report.returnPercent) := by
  obtain ⟨s, stages⟩ := exists_stages h
  have prices := stages.sequence.positivePrices
  have ends := compound_roundTrips stages.sequence stages.valued
  have outcome := Report.outcome_of_ofRun stages.reported
  constructor
  · intro no_winner
    have losers := TradeRecord.exit_le_entry_of_winningCount no_winner
    exact outcome.no_gain (compound_le_one prices losers ends)
  · intro no_loser
    have winners : ∀ trip ∈ run.record.roundTrips, trip.1 ≤ trip.2 := by
      intro trip mem
      obtain ⟨t, ht, exit, hx, rfl⟩ := TradeRecord.mem_roundTrips_iff.1 mem
      exact no_loser t ht exit hx
    exact outcome.no_loss (one_le_compound prices winners ends)

/-- Two trades from three to two lose, two trades from two to three gain. -/
theorem gain_has_sign_of_two_trades :
    let d : Definition := ⟨"s", "s", "", "", [⟨"buy", some []⟩, ⟨"sell", some []⟩]⟩
    let two : Decimal := ⟨false, 2, 0, by decide, by decide⟩
    let three : Decimal := ⟨false, 3, 0, by decide, by decide⟩
    let bar (second : Int) (close : Decimal) : Bar :=
      ⟨⟨second, 0⟩, close, close, close, close, .one⟩
    let falls : Series := ⟨"S", [bar 0 three, bar 1 two, bar 2 three, bar 3 two],
      by decide, by decide⟩
    let rises : Series := ⟨"S", [bar 0 two, bar 1 three, bar 2 two, bar 3 three],
      by decide, by decide⟩
    ∃ fallen risen, ofDefinition d falls .hundred .exclude = .ok fallen ∧
      ofDefinition d rises .hundred .exclude = .ok risen ∧
      (fallen.record.winningCount = 0 ∧ fallen.report.profit.text = "-55.56") ∧
      (risen.record.trades = [⟨⟨0, two⟩, some ⟨1, three⟩⟩, ⟨⟨2, two⟩, some ⟨3, three⟩⟩] ∧
        risen.report.profit.text = "125.00") ∧
      (fallen.report.profit ≤ .zero ∧ fallen.report.returnPercent ≤ .zero) ∧
      .zero ≤ risen.report.profit ∧ .zero ≤ risen.report.returnPercent := by
  intro d two three bar falls rises
  have loss : (ofDefinition d falls .hundred .exclude).toOption.map
      (fun run => (run.record.winningCount, run.report.profit.text)) = some (0, "-55.56") := by
    decide +kernel
  have gain : (ofDefinition d rises .hundred .exclude).toOption.map
      (fun run => (run.record.trades, run.report.profit.text)) =
      some ([⟨⟨0, two⟩, some ⟨1, three⟩⟩, ⟨⟨2, two⟩, some ⟨3, three⟩⟩], "125.00") := by
    decide +kernel
  obtain ⟨fallen, hf, fell⟩ := exists_of_toOption_map loss
  obtain ⟨risen, hr, rose⟩ := exists_of_toOption_map gain
  have fell := Prod.mk.inj fell
  have rose := Prod.mk.inj rose
  have no_loser : ∀ t ∈ risen.record.trades, ∀ exit, t.exit = some exit →
      t.entry.price ≤ exit.price := by
    rw [rose.1]
    intro t ht exit hx
    rcases List.mem_pair.1 ht with rfl | rfl <;> cases hx <;> decide +kernel
  exact ⟨fallen, risen, hf, hr, fell, rose, (gain_has_sign_of_trades hf).1 fell.1,
    (gain_has_sign_of_trades hr).2 no_loser⟩

end Run
end Backtest
