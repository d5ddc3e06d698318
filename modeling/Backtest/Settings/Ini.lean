/-
Settings in sections. A line is a section in brackets or a key with an optional value after an
equals sign or a colon; a semicolon or number sign starts a comment. The names of sections and
keys are compared in lower case, and the last line of a key counts.
-/
import Backtest.Text.Case

namespace Backtest

/-- What is wrong with a line. -/
inductive SettingsFault where
  | openSection (line : Nat)
  | emptyKey (line byte : Nat)
  deriving DecidableEq, Repr

def SettingsFault.message : SettingsFault → String
  | openSection line =>
    s!"line {line}: Found opening bracket for section name but no closing bracket"
  | emptyKey line byte => s!"line {line}:{byte}: Key cannot be empty"

/-- A line with a key: the section it belongs to, its key and its value, if it has one. -/
structure Setting where
  group : String
  key : String
  value : Option String
  deriving DecidableEq, Repr

/-- The settings of a text, the last line first. -/
structure Settings where
  latest : List Setting

namespace Settings

/-- The section of lines before any other section. -/
def defaultSection : String := "default"

/-- The lines of a text, without their ends. -/
def lines : List Char → List (List Char)
  | [] => []
  | c :: rest =>
    if c = '\n' then [] :: lines rest
    else
      match lines rest with
      | [] => [[c]]
      | line :: later => (c :: line) :: later

def isComment (c : Char) : Bool := c == ';' || c == '#'

def isDelimiter (c : Char) : Bool := c == '=' || c == ':'

/-- What counts of a line: nothing of a comment, else what stands before one, trimmed. -/
def content (line : List Char) : List Char :=
  Text.trimChars ((Text.trimChars line).takeWhile fun c => !isComment c)

/-- The name in a line that starts with a bracket, up to its last closing one. -/
def sectionName? (line : List Char) : Option (List Char) :=
  match line.reverse.dropWhile (· != ']') with
  | [] => none
  | _ :: before => some (Text.trimChars (before.reverse.drop 1))

/-- The setting of a line that is no section. -/
def readSetting (number : Nat) (group : String) (line : List Char) :
    Except SettingsFault Setting :=
  let key := line.takeWhile fun c => !isDelimiter c
  let name := Text.lower (String.ofList (Text.trimChars key))
  match line.dropWhile fun c => !isDelimiter c with
  | [] => .ok ⟨group, name, none⟩
  | _ :: value =>
    if Text.trimChars key = [] then .error (.emptyKey number (String.ofList key).utf8ByteSize)
    else .ok ⟨group, name, some (String.ofList (Text.trimChars value))⟩

/-- Read the lines from the given one on, in a section and after the settings so far. -/
def readLines (number : Nat) (group : String) (before : List Setting) :
    List (List Char) → Except SettingsFault (List Setting)
  | [] => .ok before
  | line :: rest =>
    match content line with
    | [] => readLines (number + 1) group before rest
    | '[' :: line =>
      match sectionName? ('[' :: line) with
      | none => .error (.openSection number)
      | some name => readLines (number + 1) (Text.lower (String.ofList name)) before rest
    | line => do
      let setting ← readSetting number group line
      readLines (number + 1) group (setting :: before) rest

def ofText (text : String) : Except SettingsFault Settings := do
  return ⟨← readLines 1 defaultSection [] (lines text.toList)⟩

/-- The value of a key. -/
def get? (settings : Settings) (group key : String) : Option String :=
  let isNamed (s : Setting) : Bool := s.group = Text.lower group ∧ s.key = Text.lower key
  (settings.latest.find? isNamed).bind (·.value)

end Settings
end Backtest
