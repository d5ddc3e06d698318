/-
What can be wrong with a rule as it was defined, and where.
-/
import Backtest.Json.Printer
import Backtest.Rule.Basic

namespace Backtest

/-- What is wrong with a parameter. -/
inductive ParameterFault where
  | missingPeriod
  | periodTooLarge (period : Nat)
  | noPeriod (value : Json)
  | missingLiteral
  | noLiteral (value : Json)
  | notDecimal (text : String)

/-- The largest period of an indicator, `2 ^ 32 - 1`. -/
def maxPeriod : Nat := 4294967295

def ParameterFault.message : ParameterFault → String
  | missingPeriod => "missing period"
  | periodTooLarge period => s!"period {period} exceeds maximum {maxPeriod}"
  | noPeriod value => s!"period must be a positive integer, got {value.compact}"
  | missingLiteral => "missing literal value"
  | noLiteral value => s!"expected a number, got {value.compact}"
  | notDecimal text => s!"'{text}' is not a decimal"

/-- What is wrong with a rule or condition. -/
inductive RuleProblem where
  | unsupportedIndicator (text : String)
  | unsupportedOperator (text : String)
  | unsupportedAction (text : String)
  | unsupportedOperandType (text : String)
  /-- Only an indicator can be crossed. -/
  | literalCross (operator : Operator) (value : Decimal)
  | invalidParameter (subject : String) (fault : ParameterFault)

namespace RuleProblem

def message : RuleProblem → String
  | unsupportedIndicator text => s!"unsupported indicator '{text}'"
  | unsupportedOperator text => s!"unsupported operator '{text}'"
  | unsupportedAction text => s!"unsupported action '{text}'"
  | unsupportedOperandType text => s!"unsupported operand type '{text}'"
  | literalCross operator value =>
    s!"{operator.text} requires an indicator operand, got literal {value.text}"
  | invalidParameter subject fault => s!"{subject}: {fault.message}"

/-- Whether a feature is known and only its parameter is wrong. -/
def isParameter : RuleProblem → Bool
  | invalidParameter _ _ => true
  | _ => false

end RuleProblem

/-- A rule of a definition, with its action as written, or one of its conditions. -/
structure RulePlace where
  rule : Nat
  action : String
  condition : Option Nat
  deriving DecidableEq

def RulePlace.text (p : RulePlace) : String :=
  match p.condition with
  | none => s!"rule {p.rule} ({p.action})"
  | some condition => s!"rule {p.rule} ({p.action}) condition {condition}"

/-- A problem and its place. -/
structure PlacedProblem where
  place : RulePlace
  problem : RuleProblem

def PlacedProblem.message (p : PlacedProblem) : String :=
  if p.problem.isParameter then s!"invalid parameter at {p.place.text}: {p.problem.message}"
  else s!"unsupported feature at {p.place.text}: {p.problem.message}"

end Backtest
