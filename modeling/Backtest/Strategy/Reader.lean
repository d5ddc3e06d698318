/-
Reading strategy definitions from their stored form. A text that leaves its identifier empty takes
that of the file it comes from.
-/
import Backtest.Json.Shape
import Backtest.Strategy.Definition

namespace Backtest

/-- A field that holds a text. -/
def textField {α : Type} (name : String) (aliases : List String) (required : Bool)
    (set : α → String → α) : JsonField α :=
  ⟨name, aliases, required, fun _ d record => return set record (← d.readText)⟩

/-- A field of another kind, read with the levels of nesting that are left. -/
def otherField {α β : Type} (name : String) (required : Bool)
    (read : Nat → JsonDraft → Except DecodeError β) (set : α → β → α) : JsonField α :=
  ⟨name, [], required, fun depth d record => return set record (← read depth d)⟩

/-- Read a value, or nothing from `null`. -/
def readOptional {β : Type} (read : Nat → JsonDraft → Except DecodeError β) (depth : Nat) :
    JsonDraft → Except DecodeError (Option β)
  | .null => .ok none
  | d => return some (← read depth d)

def readValue (depth : Nat) (d : JsonDraft) : Except DecodeError Json :=
  JsonDraft.orFlaw (d.keep depth)

def IndicatorDefinition.shape : JsonShape IndicatorDefinition where
  name := "IndicatorRef"
  blank := ⟨"", []⟩
  fields := [
    textField "kind" [] true fun i s => { i with kind := s },
    otherField "params" false JsonDraft.readMembers fun i ps => { i with params := ps }]

def ConditionDefinition.shape (origin : DraftOrigin) : JsonShape ConditionDefinition where
  name := "StrategyCondition"
  blank := ⟨⟨"", []⟩, "", "", none, []⟩
  fields := [
    otherField "indicatorA" true (IndicatorDefinition.shape.read origin)
      fun c i => { c with left := i },
    textField "operator" [] true fun c s => { c with operator := s },
    textField "indicatorBType" [] true fun c s => { c with operandType := s },
    otherField "indicatorBValue" false (readOptional readValue)
      fun c v => { c with operandValue := v },
    otherField "indicatorBParams" false JsonDraft.readMembers
      fun c ps => { c with operandParams := ps }]

def RuleDefinition.shape (origin : DraftOrigin) : JsonShape RuleDefinition where
  name := "StrategyRule"
  blank := ⟨"", none⟩
  fields := [
    textField "action" [] true fun r s => { r with action := s },
    otherField "conditions" false
      (readOptional (JsonDraft.readItems ((ConditionDefinition.shape origin).read origin)))
      fun r cs => { r with conditions := cs }]

def Definition.shape (origin : DraftOrigin) : JsonShape Definition where
  name := "StrategyDefinition"
  blank := ⟨"", "", "", "", []⟩
  fields := [
    textField "id" [] false fun d s => { d with id := s },
    textField "name" [] true fun d s => { d with name := s },
    textField "ownerId" ["userEmail"] false fun d s => { d with owner := s },
    textField "description" [] false fun d s => { d with description := s },
    otherField "rules" false (JsonDraft.readItems ((RuleDefinition.shape origin).read origin))
      fun d rs => { d with rules := rs }]

/-- The definition in a value. -/
def Definition.ofJson (v : Json) : Except DecodeError Definition :=
  (shape .value).read .value JsonDraft.maxDepth (JsonDraft.ofJson v)

/-- The definition in the text of the file with the given identifier. -/
def Definition.ofText (fileId text : String) : Except DecodeError Definition := do
  let reading := JsonDraft.ofText text
  let d ← (shape .text).read .text JsonDraft.maxDepth reading.draft
  if reading.surplus then .error (.flawed .trailingText)
  else return if d.id = "" then { d with id := fileId } else d

end Backtest
