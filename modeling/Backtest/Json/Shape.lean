/-
Reading records of known fields from drafts. A record may be written as an object, whose members
stand in any order and whose unknown members are skipped, or as a list of the fields in their
declared order. Flaws, misfits and repetitions are met in the order of the text; missing fields
are noticed at the end.
-/
import Backtest.Json.Draft
import Backtest.Json.Printer
import Backtest.Text.Quoted

namespace Backtest

/-- Why a draft is not what is wanted. -/
inductive DecodeError where
  | flawed (flaw : JsonFlaw)
  | missingField (name : String)
  | repeatedField (name : String)
  /-- The description of what was found, and of what is wanted. -/
  | misfit (found wanted : String)
  | wrongLength (length : Nat) (wanted : String)
  deriving DecidableEq

def DecodeError.message : DecodeError → String
  | flawed flaw => flaw.message
  | missingField name => s!"missing field `{name}`"
  | repeatedField name => s!"duplicate field `{name}`"
  | misfit found wanted => s!"invalid type: {found}, expected {wanted}"
  | wrongLength length wanted => s!"invalid length {length}, expected {wanted}"

namespace JsonDraft

/-- The error for a draft that is not what is wanted: its own flaw, if it has one. -/
def misfit (wanted : String) : JsonDraft → DecodeError
  | .null => .misfit "null" wanted
  | .boolean true => .misfit "boolean `true`" wanted
  | .boolean false => .misfit "boolean `false`" wanted
  | .number (.whole n) => .misfit s!"integer `{String.ofList (JsonNumber.whole n).chars}`" wanted
  | .number (.double x) => .misfit s!"floating point `{x.text}`" wanted
  | .text s => .misfit s!"string {Text.quoted s}" wanted
  | .spoilt flaw => .flawed flaw
  | .broken kept _ => .flawed kept
  | .list _ _ => .misfit "sequence" wanted
  | .record _ _ => .misfit "map" wanted

/-- A flaw as an error. -/
def orFlaw {α : Type} : Except JsonFlaw α → Except DecodeError α
  | .ok a => .ok a
  | .error flaw => .error (.flawed flaw)

def readText : JsonDraft → Except DecodeError String
  | .text s => .ok s
  | d => .error (d.misfit "a string")

/-- The members of an object, as values. -/
def readMembers (depth : Nat) : JsonDraft → Except DecodeError (List (String × Json))
  | .record members finish => do
    if depth = 0 then .error (.flawed .tooDeep)
    else
      let members ← orFlaw (keepMembers (depth - 1) members [])
      orFlaw finish.keep
      return members
  | d => .error (d.misfit "a map")

/-- The items of a list, each read in the same way. -/
def readItems {α : Type} (item : Nat → JsonDraft → Except DecodeError α) (depth : Nat) :
    JsonDraft → Except DecodeError (List α)
  | .list items finish => do
    if depth = 0 then .error (.flawed .tooDeep)
    else
      let items ← items.mapM (item (depth - 1))
      orFlaw finish.keep
      return items
  | d => .error (d.misfit "a sequence")

end JsonDraft

/-- Where a draft comes from, which decides the error for a list with too many items. -/
inductive DraftOrigin where
  | text
  | value
  deriving DecidableEq

/-- A field of a record of type `α`: its names, the first of which is used in errors, and how it is
put into the record. -/
structure JsonField (α : Type) where
  name : String
  aliases : List String
  required : Bool
  put : (depth : Nat) → JsonDraft → α → Except DecodeError α

/-- The fields of a record of type `α`, and the record in which none is set. -/
structure JsonShape (α : Type) where
  name : String
  fields : List (JsonField α)
  blank : α

namespace JsonShape

variable {α : Type}

def field? (shape : JsonShape α) (name : String) : Option (JsonField α) :=
  shape.fields.find? fun f => f.name == name || f.aliases.contains name

/-- Put the members into the record. The names of the fields set so far are in `seen`. -/
def putMembers (shape : JsonShape α) (depth : Nat) :
    List JsonDraft.Member → (seen : List String) → α → Except DecodeError (List String × α)
  | [], seen, record => .ok (seen, record)
  | (key, d) :: rest, seen, record => do
    let name ← JsonDraft.orFlaw key
    match shape.field? name with
    | none =>
      JsonDraft.orFlaw d.skip
      putMembers shape depth rest seen record
    | some f =>
      if seen.contains f.name then .error (.repeatedField f.name)
      else
        let record ← f.put depth d record
        putMembers shape depth rest (f.name :: seen) record

/-- Put the items of a list into the fields; `surplus` is the error for items beyond the last. -/
def putItems (wanted : String) (surplus : DecodeError) (depth : Nat) :
    List (JsonField α) → List JsonDraft → JsonFinish → (index : Nat) → α → Except DecodeError α
  | [], [], .closed, _, record => .ok record
  | [], [], .cut _ _ closing, _, _ => .error (.flawed closing)
  | [], _ :: _, _, _, _ => .error surplus
  | f :: fields, d :: items, finish, index, record => do
    let record ← f.put depth d record
    putItems wanted surplus depth fields items finish (index + 1) record
  | f :: fields, [], .closed, index, record =>
    if f.required then .error (.wrongLength index wanted)
    else putItems wanted surplus depth fields [] .closed (index + 1) record
  | _ :: _, [], .cut kept _ _, _, _ => .error (.flawed kept)

/-- Read a record that nests at most `depth` levels deep. -/
def read (shape : JsonShape α) (origin : DraftOrigin) (depth : Nat) :
    JsonDraft → Except DecodeError α
  | .record members finish => do
    if depth = 0 then .error (.flawed .tooDeep)
    else
      let (seen, record) ← shape.putMembers (depth - 1) members [] shape.blank
      JsonDraft.orFlaw finish.keep
      match shape.fields.find? fun f => f.required && !seen.contains f.name with
      | some f => .error (.missingField f.name)
      | none => .ok record
  | .list items finish =>
    if depth = 0 then .error (.flawed .tooDeep)
    else
      let wanted := s!"struct {shape.name} with {shape.fields.length} elements"
      let surplus := match origin with
        | .text => .flawed .trailingText
        | .value => .wrongLength items.length "fewer elements in array"
      putItems wanted surplus (depth - 1) shape.fields items finish 0 shape.blank
  | d => .error (d.misfit s!"struct {shape.name}")

end JsonShape
end Backtest
