/-
Instants of universal time and their text. A leap second is the second 59 of its minute with a
count of nanoseconds from `10 ^ 9` on, so it comes after that second and before the next minute.
-/
import Backtest.Calendar.Date

namespace Backtest

/-- Seconds from the start of 1970, leap seconds left out, and nanoseconds within the second. -/
structure Instant where
  second : Int
  nanosecond : Nat
  deriving DecidableEq, Repr

namespace Instant

/-- Earlier than: by second, then by nanosecond. -/
protected def Before (a b : Instant) : Prop :=
  a.second < b.second ∨ (a.second = b.second ∧ a.nanosecond < b.nanosecond)

instance : LT Instant := ⟨Instant.Before⟩

instance : LE Instant := ⟨fun a b => ¬ b < a⟩

instance (a b : Instant) : Decidable (a < b) := by
  unfold LT.lt instLT Instant.Before; infer_instance

instance (a b : Instant) : Decidable (a ≤ b) := inferInstanceAs (Decidable (¬ b < a))

theorem lt_iff {a b : Instant} : a < b ↔
    a.second < b.second ∨ (a.second = b.second ∧ a.nanosecond < b.nanosecond) := Iff.rfl

theorem lt_trans {a b c : Instant} (h : a < b) (h' : b < c) : a < c := by
  rw [lt_iff] at *; omega

/-- The date of the instant. -/
def date (t : Instant) : Date :=
  ⟨t.second / 86400⟩

/-- The first instant of a date. -/
def ofDate (d : Date) : Instant :=
  ⟨d.day * 86400, 0⟩

/-- The digits of a fraction of a second: none, three, six or nine. -/
def fractionChars (nanosecond : Nat) : List Char :=
  if nanosecond = 0 then []
  else if nanosecond % 1000000 = 0 then '.' :: lastDigits 3 (nanosecond / 1000000)
  else if nanosecond % 1000 = 0 then '.' :: lastDigits 6 (nanosecond / 1000)
  else '.' :: lastDigits 9 nanosecond

def chars (t : Instant) : List Char :=
  let time := (t.second % 86400).toNat
  let leap := t.nanosecond / 1000000000
  t.date.chars ++ ' ' :: lastDigits 2 (time / 3600) ++ ':' :: lastDigits 2 (time / 60 % 60) ++
    ':' :: lastDigits 2 (time % 60 + leap) ++ fractionChars (t.nanosecond % 1000000000) ++
    [' ', 'U', 'T', 'C']

def text (t : Instant) : String :=
  String.ofList t.chars

end Instant
end Backtest
