/-
Trading rules: when all conditions of a rule hold, its action is due. A condition compares an
indicator with an amount or with another indicator, at one bar or across the last two.
-/
import Backtest.Decimal.Text
import Backtest.Indicator.Basic

namespace Backtest

inductive Action where
  | buy
  | sell
  deriving DecidableEq, Repr

def Action.chars : Action → List Char
  | buy => "BUY".toList
  | sell => "SELL".toList

def Action.text (a : Action) : String :=
  String.ofList a.chars

inductive Operator where
  | greaterThan
  | lessThan
  | crossesAbove
  | crossesBelow
  deriving DecidableEq, Repr

namespace Operator

def chars : Operator → List Char
  | greaterThan => "GREATER_THAN".toList
  | lessThan => "LESS_THAN".toList
  | crossesAbove => "CROSSES_ABOVE".toList
  | crossesBelow => "CROSSES_BELOW".toList

def text (o : Operator) : String :=
  String.ofList o.chars

/-- Whether the comparison also looks at the bar before. -/
def isCross : Operator → Bool
  | crossesAbove | crossesBelow => true
  | greaterThan | lessThan => false

end Operator

/-- What an indicator is compared with. -/
inductive Operand where
  | constant (value : Decimal)
  | indicator (i : Indicator)
  deriving DecidableEq

def Operand.chars : Operand → List Char
  | constant value => value.chars
  | indicator i => i.chars

def Operand.text (o : Operand) : String :=
  String.ofList o.chars

structure Condition where
  left : Indicator
  operator : Operator
  right : Operand
  deriving DecidableEq

namespace Condition

def chars (c : Condition) : List Char :=
  c.left.chars ++ ' ' :: c.operator.chars ++ ' ' :: c.right.chars

/-- The indicators that the condition reads, the left one first. -/
def indicators (c : Condition) : List Indicator :=
  match c.right with
  | .indicator i => [c.left, i]
  | .constant _ => [c.left]

end Condition

/-- A rule that has been checked, and its position among the rules as they were defined. -/
structure Rule where
  index : Nat
  action : Action
  conditions : List Condition
  deriving DecidableEq

namespace Rule

/-- The conditions joined by `AND`, or `always` without any. -/
def conditionChars : List Condition → List Char
  | [] => "always".toList
  | [c] => c.chars
  | c :: d :: rest => c.chars ++ " AND ".toList ++ conditionChars (d :: rest)

def chars (r : Rule) : List Char :=
  r.action.chars ++ ':' :: ' ' :: conditionChars r.conditions

def text (r : Rule) : String :=
  String.ofList r.chars

end Rule
end Backtest
