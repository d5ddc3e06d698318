/-
Decimal digits: the value of a digit character, runs of digits at the start of a text, and digits
of a fixed width.
-/
namespace Backtest

/-- The value of a decimal digit. -/
def digit? (c : Char) : Option Nat :=
  if '0' ≤ c ∧ c ≤ '9' then some (c.toNat - '0'.toNat) else none

/-- The number that digits spell, the first one highest. -/
def digitsValue (digits : List Nat) : Nat :=
  digits.foldl (fun n d => 10 * n + d) 0

theorem digitsValue_append (digits : List Nat) (d : Nat) :
    digitsValue (digits ++ [d]) = 10 * digitsValue digits + d := by
  simp [digitsValue]

/-- The values of the leading digits, and what follows them. -/
def spanDigits : List Char → List Nat × List Char
  | [] => ([], [])
  | c :: rest =>
    match digit? c with
    | some d => let (digits, rest) := spanDigits rest; (d :: digits, rest)
    | none => ([], c :: rest)

theorem length_spanDigits (text : List Char) :
    (spanDigits text).1.length + (spanDigits text).2.length = text.length := by
  induction text with
  | nil => rfl
  | cons c rest ih =>
    unfold spanDigits
    split
    · simp only [List.length_cons]; omega
    · simp

/-- The values of the leading digits, `limit` at most, and what follows them. -/
def spanDigitsUpTo : (limit : Nat) → List Char → List Nat × List Char
  | 0, text => ([], text)
  | _, [] => ([], [])
  | limit + 1, c :: rest =>
    match digit? c with
    | some d => let (digits, rest) := spanDigitsUpTo limit rest; (d :: digits, rest)
    | none => ([], c :: rest)

/-- The number that exactly `n` digits at the start spell, and what follows them. -/
def fixedDigits? (n : Nat) (text : List Char) : Option (Nat × List Char) :=
  let (digits, rest) := spanDigitsUpTo n text
  if digits.length = n then some (digitsValue digits, rest) else none

/-- The last `n` decimal digits of `m`, with zeros in front where `m` is shorter. -/
def lastDigits : (n m : Nat) → List Char
  | 0, _ => []
  | n + 1, m => lastDigits n (m / 10) ++ [Nat.digitChar (m % 10)]

/-- The digits of `m`, with zeros in front up to the given width. -/
def paddedDigits (width m : Nat) : List Char :=
  let digits := Nat.toDigits 10 m
  List.replicate (width - digits.length) '0' ++ digits

end Backtest
