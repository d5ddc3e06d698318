/-
Strategies prepared for one series: the checked rules, the values of every indicator they read,
and the predicates of the bars at which to enter and to leave. A buying rule enters and a
selling one leaves when all its conditions hold; of several rules one is enough.
-/
import Backtest.Indicator.Cache
import Backtest.Rule.Predicate
import Backtest.Rule.Reader
import Backtest.Trade.Simulation

namespace Backtest

structure PreparedStrategy where
  name : String
  rules : List Rule
  entry : Predicate
  exit : Predicate
  cache : IndicatorCache

/-- All conditions of a rule. -/
def Rule.predicate (r : Rule) : Predicate :=
  .all (r.conditions.map .compare)

/-- Some rule with the given action. -/
def Rule.anyOf (action : Action) (rules : List Rule) : Predicate :=
  .any ((rules.filter (·.action = action)).map Rule.predicate)

/-- The indicators that the rules read, in order. -/
def Rule.indicators (rules : List Rule) : List Indicator :=
  rules.flatMap fun r => r.conditions.flatMap Condition.indicators

namespace PreparedStrategy

/-- The strategy of checked rules over the closes of a series. -/
def ofRules (name : String) (rules : List Rule) (closes : List Decimal) :
    Except Fault PreparedStrategy := do
  let cache ← IndicatorCache.empty.ensureAll closes (Rule.indicators rules)
  return ⟨name, rules, Rule.anyOf .buy rules, Rule.anyOf .sell rules, cache⟩

def enters (s : PreparedStrategy) (index : Nat) : Bool :=
  s.entry.evaluate s.cache.value? index

def leaves (s : PreparedStrategy) (index : Nat) : Bool :=
  s.exit.evaluate s.cache.value? index

def signals (s : PreparedStrategy) : Signals :=
  ⟨s.enters, s.leaves⟩

end PreparedStrategy
end Backtest
