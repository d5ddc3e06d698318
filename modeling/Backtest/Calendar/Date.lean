/-
Calendar dates, counted in days, and their text. The calendar is the Gregorian one in both
directions; years before the year 0 are negative.
-/
import Backtest.Digits

namespace Backtest

/-- A day, counted from the first day of 1970. -/
structure Date where
  day : Int
  deriving DecidableEq, Repr

namespace Date

instance : LE Date := ⟨fun a b => a.day ≤ b.day⟩

instance : LT Date := ⟨fun a b => a.day < b.day⟩

instance (a b : Date) : Decidable (a ≤ b) := inferInstanceAs (Decidable (a.day ≤ b.day))

instance (a b : Date) : Decidable (a < b) := inferInstanceAs (Decidable (a.day < b.day))

/-- The year, month and day of the month. -/
structure Civil where
  year : Int
  month : Nat
  dayOfMonth : Nat
  deriving DecidableEq, Repr

def isLeapYear (year : Int) : Bool :=
  year % 4 == 0 && (year % 100 != 0 || year % 400 == 0)

def daysInMonth (year : Int) (month : Nat) : Nat :=
  if month = 2 then if isLeapYear year then 29 else 28
  else if month = 4 ∨ month = 6 ∨ month = 9 ∨ month = 11 then 30
  else 31

/-- A day that the calendar has, in a year it covers. -/
def Civil.IsValid (c : Civil) : Prop :=
  -262143 ≤ c.year ∧ c.year ≤ 262142 ∧ 1 ≤ c.month ∧ c.month ≤ 12 ∧ 1 ≤ c.dayOfMonth ∧
    c.dayOfMonth ≤ daysInMonth c.year c.month

instance (c : Civil) : Decidable c.IsValid := by
  unfold Civil.IsValid; infer_instance

/-- Days are counted through years that begin in March, so that a leap day comes last, in cycles of
400 years. -/
def ofCivil (c : Civil) : Date :=
  let year := if c.month ≤ 2 then c.year - 1 else c.year
  let cycle := year / 400
  let yearOfCycle := year - cycle * 400
  let month := (c.month + 9) % 12
  let dayOfYear : Int := ((153 * month + 2) / 5 + c.dayOfMonth : Nat) - 1
  let dayOfCycle := yearOfCycle * 365 + yearOfCycle / 4 - yearOfCycle / 100 + dayOfYear
  ⟨cycle * 146097 + dayOfCycle - 719468⟩

/-- The date of a valid year, month and day. -/
def ofCivil? (c : Civil) : Option Date :=
  if c.IsValid then some (ofCivil c) else none

def civil (d : Date) : Civil :=
  let shifted := d.day + 719468
  let cycle := shifted / 146097
  let dayOfCycle := shifted - cycle * 146097
  let yearOfCycle :=
    (dayOfCycle - dayOfCycle / 1460 + dayOfCycle / 36524 - dayOfCycle / 146096) / 365
  let dayOfYear := dayOfCycle - (365 * yearOfCycle + yearOfCycle / 4 - yearOfCycle / 100)
  let month := (5 * dayOfYear + 2) / 153
  let dayOfMonth := dayOfYear - (153 * month + 2) / 5 + 1
  let month := if month < 10 then month + 3 else month - 9
  let year := yearOfCycle + cycle * 400
  ⟨if month ≤ 2 then year + 1 else year, month.toNat, dayOfMonth.toNat⟩

/-- Four digits for the years 0 to 9999; others have a sign and at least four digits. -/
def yearChars (year : Int) : List Char :=
  let digits := paddedDigits 4 year.natAbs
  if year < 0 then '-' :: digits
  else if 9999 < year then '+' :: digits
  else digits

def chars (d : Date) : List Char :=
  let c := d.civil
  yearChars c.year ++ '-' :: lastDigits 2 c.month ++ '-' :: lastDigits 2 c.dayOfMonth

def text (d : Date) : String :=
  String.ofList d.chars

end Date
end Backtest
