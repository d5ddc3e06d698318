/-
Strategy definitions as they are stored: names are plain texts and parameters untyped values, and
nothing has been checked. `Definition.json` is the stored form. Definitions can also be put together
from parts, with amounts as texts and periods as whole numbers.
-/
import Backtest.Json.Value

namespace Backtest

/-- An indicator by its kind and its parameters, which are in ascending order of their names. -/
structure IndicatorDefinition where
  kind : String
  params : List (String × Json)

/-- A comparison of an indicator with an operand, whose type says how its value is meant: as a
number, or as the kind of an indicator with the operand's parameters. -/
structure ConditionDefinition where
  left : IndicatorDefinition
  operator : String
  operandType : String
  operandValue : Option Json
  operandParams : List (String × Json)

/-- An action and the conditions for it. Without a list of conditions the rule does not count. -/
structure RuleDefinition where
  action : String
  conditions : Option (List ConditionDefinition)

structure Definition where
  id : String
  name : String
  owner : String
  description : String
  rules : List RuleDefinition

instance : Inhabited Definition := ⟨"", "", "", "", []⟩

/-! ## Definitions from parts -/

/-- An indicator without parameters. -/
def IndicatorDefinition.ofKind (kind : String) : IndicatorDefinition :=
  ⟨kind, []⟩

/-- An indicator over a period. -/
def IndicatorDefinition.withPeriod (kind : String) (period : Nat) : IndicatorDefinition :=
  ⟨kind, Json.insert "period" (.ofNat period) []⟩

/-- The comparison of an indicator with an amount, which is given as a text. -/
def ConditionDefinition.againstValue (left : IndicatorDefinition) (operator amount : String) :
    ConditionDefinition :=
  ⟨left, operator, "VALUE", some (.text amount), []⟩

/-- The comparison of an indicator with another one. -/
def ConditionDefinition.againstIndicator (left : IndicatorDefinition) (operator : String)
    (right : IndicatorDefinition) : ConditionDefinition :=
  ⟨left, operator, "INDICATOR", some (.text right.kind), right.params⟩

/-- A rule that has a list of conditions. -/
def RuleDefinition.ofConditions (action : String) (conditions : List ConditionDefinition) :
    RuleDefinition :=
  ⟨action, some conditions⟩

/-! ## The stored form -/

def IndicatorDefinition.json (i : IndicatorDefinition) : Json :=
  .record [("kind", .text i.kind), ("params", .record i.params)]

def ConditionDefinition.json (c : ConditionDefinition) : Json :=
  .record [("indicatorA", c.left.json), ("operator", .text c.operator),
    ("indicatorBType", .text c.operandType), ("indicatorBValue", c.operandValue.getD .null),
    ("indicatorBParams", .record c.operandParams)]

def RuleDefinition.json (r : RuleDefinition) : Json :=
  let conditions := match r.conditions with
    | none => .null
    | some conditions => .list (conditions.map ConditionDefinition.json)
  .record [("action", .text r.action), ("conditions", conditions)]

def Definition.json (d : Definition) : Json :=
  .record [("id", .text d.id), ("name", .text d.name), ("ownerId", .text d.owner),
    ("description", .text d.description), ("rules", .list (d.rules.map RuleDefinition.json))]

end Backtest
