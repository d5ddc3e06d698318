/-
Reading dates and instants. A date is `year-month-day`, where blanks may stand before each number;
an instant is a date of fixed width, a time of day and an offset from universal time.
-/
import Backtest.Calendar.Instant
import Backtest.Text.Blank

namespace Backtest

/-! ## Dates -/

namespace Date

/-- The number that digits spell, of which there must be one at least. -/
def number? : List Nat × List Char → Option (Nat × List Char)
  | ([], _) => none
  | (digits, rest) => some (digitsValue digits, rest)

/-- A year: any number of digits after a sign, else four at most. -/
def readYear (text : List Char) : Option (Int × List Char) :=
  match text.dropWhile Text.isBlank with
  | '-' :: rest => (number? (spanDigits rest)).map fun (n, rest) => (-(n : Int), rest)
  | '+' :: rest => (number? (spanDigits rest)).map fun (n, rest) => ((n : Int), rest)
  | rest => (number? (spanDigitsUpTo 4 rest)).map fun (n, rest) => ((n : Int), rest)

/-- A dash, then a number of one or two digits. -/
def readPart : List Char → Option (Nat × List Char)
  | '-' :: rest => number? (spanDigitsUpTo 2 (rest.dropWhile Text.isBlank))
  | _ => none

/-- The date that a text denotes. -/
def ofChars? (text : List Char) : Option Date := do
  let (year, rest) ← readYear text
  let (month, rest) ← readPart rest
  let (dayOfMonth, rest) ← readPart rest
  if rest = [] then ofCivil? ⟨year, month, dayOfMonth⟩ else none

def ofText? (text : String) : Option Date :=
  ofChars? text.toList

end Date

/-! ## Instants -/

namespace Instant

-- The power of naturals and integers is the one of the core library in every context.
attribute [local instance (high)] instPowNat

/-- Skip a character that has to stand here. -/
def skip? (isExpected : Char → Bool) : List Char → Option (List Char)
  | c :: rest => if isExpected c then some rest else none
  | [] => none

/-- The nanoseconds of an optional fraction, of which digits from the tenth on are dropped. -/
def readFraction : List Char → Option (Nat × List Char)
  | '.' :: rest =>
    let (digits, rest) := spanDigits rest
    if digits = [] then none
    else
      let kept := digits.take 9
      some (digitsValue kept * 10 ^ (9 - kept.length), rest)
  | rest => some (0, rest)

/-- The offset from universal time in minutes. -/
def readOffset : List Char → Option (Int × List Char)
  | [] => none
  | c :: rest =>
    if c = 'Z' ∨ c = 'z' then some (0, rest)
    else if c = '+' ∨ c = '-' ∨ c = '\u2212' then do
      let (hours, rest) ← fixedDigits? 2 rest
      let rest ← skip? (· == ':') rest
      let (minutes, rest) ← fixedDigits? 2 rest
      if hours ≤ 23 ∧ minutes ≤ 59 then
        let offset : Int := (hours * 60 + minutes : Nat)
        some (if c = '+' then offset else -offset, rest)
      else none
    else none

/-- The instant that a text with date, time of day and offset denotes. The second 60 is a leap
second. -/
def ofChars? (text : List Char) : Option Instant := do
  let (year, rest) ← fixedDigits? 4 text
  let rest ← skip? (· == '-') rest
  let (month, rest) ← fixedDigits? 2 rest
  let rest ← skip? (· == '-') rest
  let (dayOfMonth, rest) ← fixedDigits? 2 rest
  let rest ← skip? (fun c => c == 'T' || c == 't' || c == ' ') rest
  let (hour, rest) ← fixedDigits? 2 rest
  let rest ← skip? (· == ':') rest
  let (minute, rest) ← fixedDigits? 2 rest
  let rest ← skip? (· == ':') rest
  let (second, rest) ← fixedDigits? 2 rest
  let (nanosecond, rest) ← readFraction rest
  let (offset, rest) ← readOffset rest
  let date ← Date.ofCivil? ⟨year, month, dayOfMonth⟩
  if rest = [] ∧ hour ≤ 23 ∧ minute ≤ 59 ∧ second ≤ 60 then
    let minutes : Int := date.day * 1440 + (hour * 60 + minute : Nat) - offset
    if second = 60 then some ⟨minutes * 60 + 59, 1000000000 + nanosecond⟩
    else some ⟨minutes * 60 + second, nanosecond⟩
  else none

def ofText? (text : String) : Option Instant :=
  ofChars? text.toList

end Instant
end Backtest
