/-
The relative strength index. Gains and losses between closes are averaged over the first `period`
changes; after that each average is `(average · (period - 1) + change) / period`. The index is the
share of the average gain in the sum of both averages, in percent, and 100 without a loss.
-/
import Backtest.Indicator.Basic

namespace Backtest.Indicator

/-- What is known after some closes: nothing, the sums of the first changes, or the averages. -/
inductive Momentum where
  | start
  | summing (changes : Nat) (last gain loss : Decimal)
  | averaging (last gain loss : Decimal)

/-- The index of an average gain and loss. -/
def strength (gain loss : Decimal) : Except Fault Decimal :=
  if loss.magnitude = 0 then .ok .hundred
  else do
    let share ← Decimal.hundred.mul gain
    share.div (← gain.add loss)

/-- The average after one more change. -/
def smooth (period : Nat) (average change : Decimal) : Except Fault Decimal := do
  let total ← (← average.times (period - 1)).add change
  total.part period

/-- Take in one close. -/
def Momentum.advance (period : Nat) :
    Momentum → Decimal → Except Fault (Momentum × Option Decimal)
  | .start, close => .ok (.summing 0 close .zero .zero, none)
  | .summing changes last gain loss, close => do
    let change ← close.sub last
    let gain ← gain.add (max change .zero)
    if changes + 1 < period then
      let loss ← loss.add (max (-change) .zero)
      return (.summing (changes + 1) close gain loss, none)
    else
      let gain ← gain.part period
      let loss ← (← loss.add (max (-change) .zero)).part period
      return (.averaging close gain loss, some (← strength gain loss))
  | .averaging last gain loss, close => do
    let change ← close.sub last
    let gain ← smooth period gain (max change .zero)
    let loss ← smooth period loss (max (-change) .zero)
    return (.averaging close gain loss, some (← strength gain loss))

/-- The relative strength index. A series with no more closes than the period has no value. -/
def rsiValues (period : Nat) (closes : List Decimal) : Except Fault Values :=
  if period = 0 ∨ closes.length ≤ period then .ok (undefined closes.length)
  else scan (Momentum.advance period) .start closes

end Backtest.Indicator
