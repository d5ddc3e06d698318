/-
A JSON text as far as it can be read. A draft is a value whose parts may carry flaws, so that a
reader who knows what it wants meets flaws and misfits in the order of the text. Every flaw that a
separator may have is recorded for three readers: one that keeps the elements, one that skips them,
and one that has all the elements it wants and expects the end.

The text is read with a stack of the lists and records that are still open.
-/
import Backtest.Json.Token

namespace Backtest

/-- How a list or record ends. -/
inductive JsonFinish where
  | closed
  | cut (kept skipped closing : JsonFlaw)
  deriving DecidableEq

def JsonFinish.skip : JsonFinish → Except JsonFlaw Unit
  | .closed => .ok ()
  | .cut _ skipped _ => .error skipped

def JsonFinish.keep : JsonFinish → Except JsonFlaw Unit
  | .closed => .ok ()
  | .cut kept _ _ => .error kept

inductive JsonDraft where
  | null
  | boolean (value : Bool)
  | number (n : JsonNumber)
  | text (s : String)
  /-- A number or text that can be skipped but not kept. -/
  | spoilt (flaw : JsonFlaw)
  /-- Nothing can be read from here on. -/
  | broken (kept skipped : JsonFlaw)
  | list (items : List JsonDraft) (finish : JsonFinish)
  /-- A member name may be one that can be skipped but not kept. -/
  | record (members : List (Except JsonFlaw String × JsonDraft)) (finish : JsonFinish)

namespace JsonDraft

instance : Inhabited JsonDraft := ⟨.null⟩

abbrev Member := Except JsonFlaw String × JsonDraft

/-! ## Reading -/

/-- A list or record in which a value is being read, with what it holds before that value, the
last first. -/
inductive Frame where
  | list (before : List JsonDraft)
  | record (before : List Member) (key : Except JsonFlaw String)

/-- Put a value that cannot be read to its end into the open lists and records around it. -/
def wrap : List Frame → JsonDraft → JsonDraft
  | [], d => d
  | .list before :: around, d => wrap around (.list (d :: before).reverse .closed)
  | .record before key :: around, d => wrap around (.record ((key, d) :: before).reverse .closed)

/-- A draft, and whether anything follows it. -/
structure Reading where
  draft : JsonDraft
  surplus : Bool

def Reading.stuck (around : List Frame) (d : JsonDraft) : Reading :=
  ⟨wrap around d, false⟩

/-- A list that is cut off. -/
def cutList (around : List Frame) (items : List JsonDraft) (kept skipped closing : JsonFlaw) :
    Reading :=
  .stuck around (.list items.reverse (.cut kept skipped closing))

/-- A record that is cut off. -/
def cutRecord (around : List Frame) (members : List Member) (kept skipped : JsonFlaw) : Reading :=
  .stuck around (.record members.reverse (.cut kept skipped kept))

mutual

/-- Read a value. -/
def readValue : List JsonToken → List Frame → Reading
  | [], around => .stuck around (.broken .endInValue .endInValue)
  | token :: rest, around =>
    match token with
    | .null => readAfter rest around .null
    | .boolean b => readAfter rest around (.boolean b)
    | .number n => readAfter rest around (.number n)
    | .text s => readAfter rest around (.text s)
    | .spoiltText flaw => readAfter rest around (.spoilt flaw)
    | .spoiltNumber flaw => readAfter rest around (.spoilt flaw)
    | .brokenText kept skipped => .stuck around (.broken kept skipped)
    | .broken kept skipped => .stuck around (.broken kept skipped)
    | .openList =>
      match rest with
      | [] => cutList around [] .endInList .endInList .endInList
      | .closeList :: rest => readAfter rest around (.list [] .closed)
      | rest => readValue rest (.list [] :: around)
    | .openRecord =>
      match rest with
      | [] => cutRecord around [] .endInRecord .endInRecord
      | .closeRecord :: rest => readAfter rest around (.record [] .closed)
      | rest => readKey rest around []
    | .closeList | .closeRecord | .colon | .comma =>
      .stuck around (.broken .expectedValue .expectedValue)

/-- Read on after a value. -/
def readAfter : List JsonToken → List Frame → JsonDraft → Reading
  | rest, [], d => ⟨d, !rest.isEmpty⟩
  | [], .list before :: around, d =>
    cutList around (d :: before) .endInList .endInList .endInList
  | token :: rest, .list before :: around, d =>
    match token with
    | .closeList => readAfter rest around (.list (d :: before).reverse .closed)
    | .comma =>
      match rest with
      | [] => cutList around (d :: before) .endInValue .endInValue .trailingText
      | .closeList :: _ => cutList around (d :: before) .trailingComma .expectedValue .trailingComma
      | rest => readValue rest (.list (d :: before) :: around)
    | _ => cutList around (d :: before) .expectedListComma .expectedListComma .trailingText
  | [], .record before key :: around, d =>
    cutRecord around ((key, d) :: before) .endInRecord .endInRecord
  | token :: rest, .record before key :: around, d =>
    match token with
    | .closeRecord => readAfter rest around (.record ((key, d) :: before).reverse .closed)
    | .comma =>
      match rest with
      | [] => cutRecord around ((key, d) :: before) .endInValue .endInRecord
      | .closeRecord :: _ => cutRecord around ((key, d) :: before) .trailingComma .keyNotText
      | rest => readKey rest around ((key, d) :: before)
    | _ => cutRecord around ((key, d) :: before) .expectedRecordComma .expectedRecordComma

/-- Read a member from its name on. -/
def readKey : List JsonToken → List Frame → List Member → Reading
  | .text s :: rest, around, before => readColon rest around before (.ok s)
  | .spoiltText flaw :: rest, around, before => readColon rest around before (.error flaw)
  | .brokenText kept skipped :: _, around, before => cutRecord around before kept skipped
  | _, around, before => cutRecord around before .keyNotText .keyNotText

/-- Read a member from its colon on. -/
def readColon : List JsonToken → List Frame → List Member → Except JsonFlaw String → Reading
  | [], around, before, key =>
    .stuck (.record before key :: around) (.broken .endInRecord .endInRecord)
  | .colon :: rest, around, before, key => readValue rest (.record before key :: around)
  | _, around, before, key =>
    .stuck (.record before key :: around) (.broken .expectedColon .expectedColon)

end

/-- Read a text. -/
def ofText (text : String) : Reading :=
  readValue (JsonToken.tokens text.toList) []

/-! ## Skipping and keeping -/

mutual

/-- Pass over a value. -/
def skip : JsonDraft → Except JsonFlaw Unit
  | .broken _ skipped => .error skipped
  | .list items finish => do skipItems items; finish.skip
  | .record members finish => do skipMembers members; finish.skip
  | _ => .ok ()

def skipItems : List JsonDraft → Except JsonFlaw Unit
  | [] => .ok ()
  | d :: rest => do skip d; skipItems rest

def skipMembers : List Member → Except JsonFlaw Unit
  | [] => .ok ()
  | (_, d) :: rest => do skip d; skipMembers rest

end

mutual

/-- The value of a draft that nests at most `depth` levels deep. Members are put in ascending order
of their names, and the last of one name counts. -/
def keep (depth : Nat) : JsonDraft → Except JsonFlaw Json
  | .null => .ok .null
  | .boolean b => .ok (.boolean b)
  | .number n => .ok (.number n)
  | .text s => .ok (.text s)
  | .spoilt flaw => .error flaw
  | .broken kept _ => .error kept
  | .list items finish =>
    if depth = 0 then .error .tooDeep
    else do
      let items ← keepItems (depth - 1) items
      finish.keep
      return .list items
  | .record members finish =>
    if depth = 0 then .error .tooDeep
    else do
      let members ← keepMembers (depth - 1) members []
      finish.keep
      return .record members

def keepItems (depth : Nat) : List JsonDraft → Except JsonFlaw (List Json)
  | [] => .ok []
  | d :: rest => do
    let item ← keep depth d
    let items ← keepItems depth rest
    return item :: items

/-- The members, added to those before them. -/
def keepMembers (depth : Nat) :
    List Member → List (String × Json) → Except JsonFlaw (List (String × Json))
  | [], before => .ok before
  | (key, d) :: rest, before => do
    let name ← key
    let value ← keep depth d
    keepMembers depth rest (Json.insert name value before)

end

/-- The deepest nesting of a value that is kept. -/
def maxDepth : Nat := 127

/-! ## Values as drafts -/

mutual

/-- The draft of a value that is at hand. -/
def ofJson : Json → JsonDraft
  | .null => .null
  | .boolean b => .boolean b
  | .number n => .number n
  | .text s => .text s
  | .list items => .list (ofItems items) .closed
  | .record members => .record (ofMembers members) .closed

def ofItems : List Json → List JsonDraft
  | [] => []
  | v :: rest => ofJson v :: ofItems rest

def ofMembers : List (String × Json) → List Member
  | [] => []
  | (name, v) :: rest => (.ok name, ofJson v) :: ofMembers rest

end

end JsonDraft

/-- The value of a JSON text. -/
def Json.ofText (text : String) : Except JsonFlaw Json := do
  let reading := JsonDraft.ofText text
  let value ← reading.draft.keep JsonDraft.maxDepth
  if reading.surplus then .error .trailingText else return value

end Backtest
