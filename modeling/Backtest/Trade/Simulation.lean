/-
Simulation of a strategy over the closes of a series. The strategy says at each bar whether to
enter and whether to leave; a trade is opened or closed at the close of that bar, at most one of
the two per bar, and a trade that is open at the last bar stays open.
-/
import Backtest.Trade.Record
import Backtest.Decimal.Arithmetic

namespace Backtest

/-- At which bars to enter and to leave. -/
structure Signals where
  enters : Nat → Bool
  leaves : Nat → Bool

/-- The whole units that the cash buys at the price, at least one. -/
def affordableUnits (cash price : Decimal) : Except Fault Decimal :=
  if ¬ price.IsPositive then .ok .one
  else do
    let quotient ← cash.div price
    return max quotient.floor .one

namespace TradeRecord

/-- The record after the close of one bar. -/
def advance (signals : Signals) (r : TradeRecord) (close : Fill) : TradeRecord :=
  match r.position with
  | .flat => if signals.enters close.index then r.fill (.enter close) else r
  | .long => if signals.leaves close.index then r.fill (.exit close) else r

/-- The record after the closes of the bars from `index` on. -/
def advanceAll (signals : Signals) (r : TradeRecord) (index : Nat) : List Decimal → TradeRecord
  | [] => r
  | close :: rest => advanceAll signals (r.advance signals ⟨index, close⟩) (index + 1) rest

/-- The trades of a run. The first close fixes the quantity; without bars it is zero. -/
def simulate (signals : Signals) (cash : Decimal) (closes : List Decimal) :
    Except Fault TradeRecord :=
  match closes with
  | [] => .ok (empty .zero)
  | first :: _ => do
    let quantity ← affordableUnits cash first
    return advanceAll signals (empty quantity) 0 closes

end TradeRecord
end Backtest
