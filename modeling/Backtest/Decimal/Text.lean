/-
The text of a decimal amount: a minus sign if it is negative, at least one digit, and exactly as
many fraction digits as the scale says. There is never an exponent.
-/
import Backtest.Decimal.Basic
import Backtest.Digits

namespace Backtest

namespace Decimal

-- The power of naturals and integers is the one of the core library in every context.
attribute [local instance (high)] instPowNat

def chars (d : Decimal) : List Char :=
  let sign := if d.negative then ['-'] else []
  let whole := Nat.toDigits 10 (d.magnitude / 10 ^ d.scale)
  let fraction := if d.scale = 0 then [] else '.' :: lastDigits d.scale d.magnitude
  sign ++ whole ++ fraction

/-- The text with all fraction digits of the scale. -/
def text (d : Decimal) : String :=
  String.ofList d.chars

/-- The text of the value alone, with no zero at the end of the fraction. -/
def shortText (d : Decimal) : String :=
  d.normalize.text

end Decimal
end Backtest
