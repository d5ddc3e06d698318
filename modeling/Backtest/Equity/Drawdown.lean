/-
The drawdown of an equity curve: the largest fall from the peak so far, as a part of that peak.
-/
import Backtest.Decimal.Arithmetic

namespace Backtest

/-- The worst of `worst` and the falls of the values below the running peak. -/
def drawdownFrom (peak worst : Decimal) : List Decimal → Except Fault Decimal
  | [] => .ok worst
  | equity :: rest =>
    if peak < equity then drawdownFrom equity worst rest
    else if peak.IsPositive then do
      let fall ← (← peak.sub equity).div peak
      drawdownFrom peak (if worst < fall then fall else worst) rest
    else drawdownFrom peak worst rest

/-- The largest fall from the running peak, zero for a curve without values. -/
def drawdown : List Decimal → Except Fault Decimal
  | [] => .ok .zero
  | first :: rest => drawdownFrom first .zero (first :: rest)

end Backtest
