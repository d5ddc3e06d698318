/-
Predicates over bar indices, built from conditions by conjunction and disjunction. A condition is
false where a value it needs is undefined; a crossing needs the values of the bar before as well,
so it is false at the first bar.
-/
import Backtest.Rule.Basic

namespace Backtest

/-- The value of an indicator at an index, where it is defined. -/
abbrev Lookup := Indicator → Nat → Option Decimal

def Operand.value? (values : Lookup) (index : Nat) : Operand → Option Decimal
  | constant value => some value
  | indicator i => values i index

/-- The values on both sides. -/
def Condition.sides? (c : Condition) (values : Lookup) (index : Nat) :
    Option (Decimal × Decimal) := do
  let left ← values c.left index
  let right ← c.right.value? values index
  return (left, right)

/-- Whether the condition holds at an index. -/
def Condition.evaluate (c : Condition) (values : Lookup) (index : Nat) : Bool :=
  match c.sides? values index with
  | none => false
  | some (left, right) =>
    match c.operator, index with
    | .greaterThan, _ => right < left
    | .lessThan, _ => left < right
    | .crossesAbove, before + 1 =>
      match c.sides? values before with
      | some (left', right') => left' ≤ right' && right < left
      | none => false
    | .crossesBelow, before + 1 =>
      match c.sides? values before with
      | some (left', right') => right' ≤ left' && left < right
      | none => false
    | _, 0 => false

inductive Predicate where
  | compare (c : Condition)
  | all (parts : List Predicate)
  | any (parts : List Predicate)

namespace Predicate

def never : Predicate := any []

mutual

def evaluate (values : Lookup) (index : Nat) : Predicate → Bool
  | compare c => c.evaluate values index
  | all parts => evaluateAll values index parts
  | any parts => evaluateAny values index parts

def evaluateAll (values : Lookup) (index : Nat) : List Predicate → Bool
  | [] => true
  | p :: rest => evaluate values index p && evaluateAll values index rest

def evaluateAny (values : Lookup) (index : Nat) : List Predicate → Bool
  | [] => false
  | p :: rest => evaluate values index p || evaluateAny values index rest

end

mutual

/-- The number of conditions in the predicate. -/
def conditionCount : Predicate → Nat
  | compare _ => 1
  | all parts => conditionCountList parts
  | any parts => conditionCountList parts

def conditionCountList : List Predicate → Nat
  | [] => 0
  | p :: rest => conditionCount p + conditionCountList rest

end

end Predicate
end Backtest
