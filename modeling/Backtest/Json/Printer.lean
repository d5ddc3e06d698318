/-
The text of a JSON value. The compact form has no blanks; the block form of a record has one
member on each line, indented by two blanks. Only quotes, backslashes and control characters are
escaped, so any other character stands for itself.
-/
import Backtest.Json.Number

namespace Backtest.Json

/-- A lower-case hexadecimal digit. -/
def hexDigit (n : Nat) : Char := Nat.digitChar n

/-- The escaped form of a character inside a text. -/
def escape (c : Char) : List Char :=
  if c = '"' then ['\\', '"']
  else if c = '\\' then ['\\', '\\']
  else if c = '\x08' then ['\\', 'b']
  else if c = '\x0c' then ['\\', 'f']
  else if c = '\n' then ['\\', 'n']
  else if c = '\r' then ['\\', 'r']
  else if c = '\t' then ['\\', 't']
  else if c < ' ' then ['\\', 'u', '0', '0', hexDigit (c.toNat / 16), hexDigit (c.toNat % 16)]
  else [c]

/-- A text in quotes. -/
def quote (s : String) : List Char :=
  '"' :: s.toList.flatMap escape ++ ['"']

mutual

/-- The compact form of a value. -/
def chars : Json → List Char
  | .null => ['n', 'u', 'l', 'l']
  | .boolean true => ['t', 'r', 'u', 'e']
  | .boolean false => ['f', 'a', 'l', 's', 'e']
  | .number n => n.chars
  | .text s => quote s
  | .list items => '[' :: itemChars items ++ [']']
  | .record members => '\x7b' :: memberChars members ++ ['\x7d']

def itemChars : List Json → List Char
  | [] => []
  | [v] => chars v
  | v :: w :: rest => chars v ++ ',' :: itemChars (w :: rest)

def memberChars : List (String × Json) → List Char
  | [] => []
  | [(name, v)] => quote name ++ ':' :: chars v
  | (name, v) :: m :: rest => quote name ++ ':' :: chars v ++ ',' :: memberChars (m :: rest)

end

/-- The compact text of a value. -/
def compact (v : Json) : String :=
  String.ofList v.chars

/-- The block form of a record. -/
def blockChars (members : List (String × Json)) : List Char :=
  let line (m : String × Json) : List Char := ' ' :: ' ' :: quote m.1 ++ ':' :: ' ' :: m.2.chars
  '\x7b' :: '\n' :: List.intercalate [',', '\n'] (members.map line) ++ ['\n', '\x7d']

end Backtest.Json
