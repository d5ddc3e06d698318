/-
Checking rules as they were defined. Names are compared trimmed and in capitals. The first problem
counts, in the order of the rules; in a rule the action comes first and then the conditions in
order; in a condition the left indicator, the operator, the operand, and last whether the two fit.
-/
import Backtest.Decimal.Reader
import Backtest.Rule.Problem
import Backtest.Strategy.Definition
import Backtest.Text.Case

namespace Backtest

def Action.ofText (text : String) : Except RuleProblem Action :=
  let name := Text.name text
  if name = "BUY" then .ok buy
  else if name = "SELL" then .ok sell
  else .error (.unsupportedAction text)

def Operator.ofText (text : String) : Except RuleProblem Operator :=
  let name := Text.name text
  if name = "GREATER_THAN" then .ok greaterThan
  else if name = "LESS_THAN" then .ok lessThan
  else if name = "CROSSES_ABOVE" then .ok crossesAbove
  else if name = "CROSSES_BELOW" then .ok crossesBelow
  else .error (.unsupportedOperator text)

/-- The natural number that a JSON number is, if it is one; as a floating-point number only up to
the largest period. -/
def JsonNumber.period? : JsonNumber → Option Nat
  | .whole n => if 0 ≤ n then some n.toNat else none
  | .double x => x.toNat?.filter fun n => 1 ≤ n && n ≤ maxPeriod

/-- The period among the parameters, a whole number from 1 to the largest period. -/
def readPeriod (subject : String) (params : List (String × Json)) : Except RuleProblem Nat :=
  match Json.member? params "period" with
  | none => .error (.invalidParameter subject .missingPeriod)
  | some value =>
    let period := match value with
      | .number n => n.period?
      | _ => none
    match period with
    | some period =>
      if maxPeriod < period then .error (.invalidParameter subject (.periodTooLarge period))
      else if 0 < period then .ok period
      else .error (.invalidParameter subject (.noPeriod value))
    | none => .error (.invalidParameter subject (.noPeriod value))

/-- The indicator of a kind with parameters. The price takes none. -/
def Indicator.ofDefinition (kind : String) (params : List (String × Json)) :
    Except RuleProblem Indicator :=
  let name := Text.name kind
  if name = "PRICE" then .ok price
  else if name = "SMA" then return sma (← readPeriod name params)
  else if name = "EMA" then return ema (← readPeriod name params)
  else if name = "RSI" then return rsi (← readPeriod name params)
  else .error (.unsupportedIndicator kind)

/-- The amount that a value denotes, as a text or as the text of a number. -/
def readLiteral (value : Option Json) : Except RuleProblem Decimal :=
  let ofText (text : String) : Except RuleProblem Decimal :=
    match Decimal.ofText? text with
    | some d => .ok d
    | none => .error (.invalidParameter "VALUE" (.notDecimal text))
  match value with
  | some (.text s) => ofText (Text.trim s)
  | some (.number n) => ofText (String.ofList n.chars)
  | some other => .error (.invalidParameter "VALUE" (.noLiteral other))
  | none => .error (.invalidParameter "VALUE" .missingLiteral)

/-- The operand of a condition. -/
def Operand.ofDefinition (c : ConditionDefinition) : Except RuleProblem Operand :=
  let name := Text.name c.operandType
  if name = "VALUE" then return constant (← readLiteral c.operandValue)
  else if name = "INDICATOR" then
    match c.operandValue with
    | some (.text kind) => return indicator (← Indicator.ofDefinition kind c.operandParams)
    | some other => .error (.unsupportedIndicator other.compact)
    | none => .error (.unsupportedIndicator "")
  else .error (.unsupportedOperandType c.operandType)

/-- Check a condition. -/
def Condition.ofDefinition (c : ConditionDefinition) : Except RuleProblem Condition := do
  let left ← Indicator.ofDefinition c.left.kind c.left.params
  let operator ← Operator.ofText c.operator
  let right ← Operand.ofDefinition c
  match operator.isCross, right with
  | true, .constant value => .error (.literalCross operator value)
  | _, _ => return ⟨left, operator, right⟩

/-- Attach its place to a problem. -/
def placed {α : Type} (place : RulePlace) : Except RuleProblem α → Except PlacedProblem α
  | .ok a => .ok a
  | .error problem => .error ⟨place, problem⟩

/-- Check the conditions of a rule from the given one on. -/
def Condition.listOfDefinitions (rule : Nat) (action : String) (index : Nat) :
    List ConditionDefinition → Except PlacedProblem (List Condition)
  | [] => .ok []
  | c :: rest => do
    let condition ← placed ⟨rule, action, some index⟩ (ofDefinition c)
    let conditions ← listOfDefinitions rule action (index + 1) rest
    return condition :: conditions

/-- Check a rule: none if it has no list of conditions. -/
def Rule.ofDefinition (index : Nat) (r : RuleDefinition) : Except PlacedProblem (Option Rule) := do
  let action ← placed ⟨index, r.action, none⟩ (Action.ofText r.action)
  match r.conditions with
  | none => return none
  | some conditions =>
    let conditions ← Condition.listOfDefinitions index r.action 0 conditions
    return some ⟨index, action, conditions⟩

/-- Check the rules from the given one on. -/
def Rule.listOfDefinitions (index : Nat) : List RuleDefinition → Except PlacedProblem (List Rule)
  | [] => .ok []
  | r :: rest => do
    let rule ← ofDefinition index r
    let rules ← listOfDefinitions (index + 1) rest
    return rule.toList ++ rules

/-- The rules of a definition that count, or the first problem. -/
def Definition.checkedRules (d : Definition) : Except PlacedProblem (List Rule) :=
  Rule.listOfDefinitions 0 d.rules

end Backtest
