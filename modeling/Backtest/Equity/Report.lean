/-
The report of a run. Profit, return, win rate and drawdown come from the equity curve and the
record, and are rounded to two places; a run without trades, bars or cash has a report of zeros.
-/
import Backtest.Decimal.Cents
import Backtest.Equity.Curve
import Backtest.Equity.Drawdown

namespace Backtest

structure Report where
  strategy : String
  symbol : String
  trades : Nat
  profit : Decimal
  returnPercent : Decimal
  winRatePercent : Decimal
  drawdownPercent : Decimal
  deriving DecidableEq

namespace Report

/-- The report of a run in which nothing happened. -/
def empty (strategy symbol : String) : Report :=
  ⟨strategy, symbol, 0, Decimal.zero.toCents, Decimal.zero.toCents, Decimal.zero.toCents,
    Decimal.zero.toCents⟩

/-- The share of winning trades in percent. -/
def winRate (r : TradeRecord) : Except Fault Decimal :=
  if r.completedCount = 0 then .ok .zero
  else do
    let scaled ← Decimal.hundred.times r.winningCount
    scaled.part r.completedCount

/-- The report of a run. -/
def ofRun (strategy symbol : String) (curve : List Decimal) (r : TradeRecord) (cash : Decimal) :
    Except Fault Report :=
  match curve.getLast? with
  | none => .ok (empty strategy symbol)
  | some last =>
    if r.trades = [] ∨ ¬ cash.IsPositive then .ok (empty strategy symbol)
    else do
      let profit ← (← last.mul cash).sub cash
      let winRate ← winRate r
      let gain ← (← profit.div cash).mul .hundred
      let fall ← (← drawdown curve).mul .hundred
      return ⟨strategy, symbol, r.completedCount, profit.toCents, gain.toCents, winRate.toCents,
        fall.toCents⟩

end Report
end Backtest
