/-
Moving averages. The simple one keeps the sum of its window: each close is added, and once the
window is full the close that leaves it is taken off. The exponential one starts as the simple
average of the first closes and then moves towards each close by the fraction `2 / (period + 1)`.
-/
import Backtest.Indicator.Basic

namespace Backtest.Indicator

/-- The closes seen, up to the period, their sum, and the closes that leave the window next. -/
structure Window where
  filled : Nat
  sum : Decimal
  leaving : List Decimal

/-- Take a close into the window. -/
def Window.slide (period : Nat) (w : Window) (close : Decimal) :
    Except Fault (Window × Option Decimal) := do
  let sum ← w.sum.add close
  if w.filled < period then
    let filled := w.filled + 1
    if filled < period then return (⟨filled, sum, w.leaving⟩, none)
    else return (⟨filled, sum, w.leaving⟩, some (← sum.part period))
  else
    let sum ← match w.leaving with
      | [] => pure sum
      | left :: _ => sum.sub left
    return (⟨w.filled, sum, w.leaving.drop 1⟩, some (← sum.part period))

/-- The simple moving average. -/
def smaValues (period : Nat) (closes : List Decimal) : Except Fault Values :=
  if period = 0 then .ok (undefined closes.length)
  else scan (Window.slide period) ⟨0, .zero, closes⟩ closes

/-- The exponential average before and after its start. -/
inductive Trend where
  | warming (count : Nat) (sum : Decimal)
  | moving (average : Decimal)

/-- Move the average by one close. -/
def Trend.advance (period : Nat) (fraction : Decimal) :
    Trend → Decimal → Except Fault (Trend × Option Decimal)
  | .warming count sum, close => do
    let sum ← sum.add close
    if count + 1 < period then return (.warming (count + 1) sum, none)
    else
      let average ← sum.part period
      return (.moving average, some average)
  | .moving average, close => do
    let distance ← close.sub average
    let average ← average.add (← fraction.mul distance)
    return (.moving average, some average)

/-- The exponential moving average. -/
def emaValues (period : Nat) (closes : List Decimal) : Except Fault Values :=
  if period = 0 then .ok (undefined closes.length)
  else do
    let fraction ← Decimal.ratio 2 (period + 1)
    scan (Trend.advance period fraction) (.warming 0 .zero) closes

end Backtest.Indicator
