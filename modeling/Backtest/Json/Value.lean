/-
JSON values. Numbers keep the two kinds that JSON text tells apart: whole numbers of 64 bits and
floating-point numbers. The members of a record are a list, so a written record has an order;
`Json.insert` keeps members in strictly ascending order of their names.
-/
import Backtest.Binary64.Shortest

namespace Backtest

inductive JsonNumber where
  /-- A whole number from `-2 ^ 63` up to `2 ^ 64 - 1`. -/
  | whole (n : Int)
  | double (x : Binary64)
  deriving DecidableEq

inductive Json where
  | null
  | boolean (value : Bool)
  | number (n : JsonNumber)
  | text (s : String)
  | list (items : List Json)
  | record (members : List (String × Json))

instance : Inhabited Json := ⟨.null⟩

namespace Json

/-- Add a member to an ascending list of members; a member of the same name is replaced. -/
def insert (name : String) (value : Json) : List (String × Json) → List (String × Json)
  | [] => [(name, value)]
  | (other, old) :: rest =>
    if name < other then (name, value) :: (other, old) :: rest
    else if name = other then (name, value) :: rest
    else (other, old) :: insert name value rest

/-- The value of the first member of the given name. -/
def member? (members : List (String × Json)) (name : String) : Option Json :=
  (members.find? (fun m => m.1 == name)).map (·.2)

def ofNat (n : Nat) : Json := .number (.whole n)

end Json
end Backtest
