/-
What can be wrong with a JSON text, and the wording of each flaw.
-/
namespace Backtest

inductive JsonFlaw where
  | endInValue
  | endInList
  | endInRecord
  | endInText
  | expectedValue
  | expectedWord
  | expectedColon
  | expectedListComma
  | expectedRecordComma
  | keyNotText
  | trailingComma
  | trailingText
  | invalidNumber
  | numberTooLarge
  | invalidEscape
  | controlCharacter
  /-- A high surrogate with no second escape after it. -/
  | missingLowSurrogate
  | loneSurrogate
  | tooDeep
  deriving DecidableEq, Repr

def JsonFlaw.message : JsonFlaw → String
  | endInValue => "EOF while parsing a value"
  | endInList => "EOF while parsing a list"
  | endInRecord => "EOF while parsing an object"
  | endInText => "EOF while parsing a string"
  | expectedValue => "expected value"
  | expectedWord => "expected ident"
  | expectedColon => "expected `:`"
  | expectedListComma => "expected `,` or `]`"
  | expectedRecordComma => "expected `,` or `\x7d`"
  | keyNotText => "key must be a string"
  | trailingComma => "trailing comma"
  | trailingText => "trailing characters"
  | invalidNumber => "invalid number"
  | numberTooLarge => "number out of range"
  | invalidEscape => "invalid escape"
  | controlCharacter => "control character (\\u0000-\\u001F) found while parsing a string"
  | missingLowSurrogate => "unexpected end of hex escape"
  | loneSurrogate => "lone leading surrogate in hex escape"
  | tooDeep => "recursion limit exceeded"

end Backtest
