/-
Arithmetic on decimal amounts. Every operation takes the exact result and rounds it once with
`Decimal.nearest?`; it fails only when that has no answer or when the divisor is zero. Bar counts
and periods enter as natural numbers, which stand for whole amounts.
-/
import Backtest.Decimal.Basic

namespace Backtest

/-- Why an arithmetic operation has no result. -/
inductive Fault where
  | addition
  | subtraction
  | multiplication
  | division
  | zeroDivisor
  deriving DecidableEq, Repr

def Fault.message : Fault → String
  | addition => "Addition overflowed"
  | subtraction => "Subtraction overflowed"
  | multiplication => "Multiplication overflowed"
  | division => "Division overflowed"
  | zeroDivisor => "Division by zero"

namespace Decimal

/-- The rounded amount, or the given fault if it is too large. -/
def rounded (fault : Fault) (exact : Rat) : Except Fault Decimal :=
  match nearest? exact with
  | some d => .ok d
  | none => .error fault

protected def add (a b : Decimal) : Except Fault Decimal :=
  rounded .addition (a.toRat + b.toRat)

protected def sub (a b : Decimal) : Except Fault Decimal :=
  rounded .subtraction (a.toRat - b.toRat)

protected def mul (a b : Decimal) : Except Fault Decimal :=
  rounded .multiplication (a.toRat * b.toRat)

protected def div (a b : Decimal) : Except Fault Decimal :=
  if b.magnitude = 0 then .error .zeroDivisor
  else rounded .division (a.toRat / b.toRat)

/-- `n` times the amount. -/
def times (a : Decimal) (n : Nat) : Except Fault Decimal :=
  rounded .multiplication (a.toRat * (n : Rat))

/-- The `n`-th part of the amount. -/
def part (a : Decimal) (n : Nat) : Except Fault Decimal :=
  if n = 0 then .error .zeroDivisor
  else rounded .division (a.toRat / (n : Rat))

/-- The quotient of two whole numbers as an amount. -/
def ratio (n m : Nat) : Except Fault Decimal :=
  if m = 0 then .error .zeroDivisor
  else rounded .division ((n : Rat) / (m : Rat))

end Decimal
end Backtest
