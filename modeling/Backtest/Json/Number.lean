/-
The value of a JSON number. A number without fraction and exponent that fits 64 bits is whole.
Any other is a floating-point number, found in two rounded steps: the leading digits that fit 64
bits become the significand, which is then scaled by a power of ten. The second step makes the
result the nearest number in most cases, but not in all.
-/
import Backtest.Json.Value
import Backtest.Json.Flaw
import Backtest.Digits

namespace Backtest

/-- A JSON number by its parts, each digit as its value. -/
structure NumberParts where
  negative : Bool
  whole : List Nat
  /-- Digits after the point, none if there is no point. -/
  fraction : List Nat
  /-- Whether the exponent is below zero, and its digits. -/
  exponent : Option (Bool × List Nat)

namespace NumberParts

-- The power of naturals and integers is the one of the core library in every context.
attribute [local instance (high)] instPowNat

/-- Whole numbers and significands lie below `2 ^ 64`. -/
def wordBound : Nat := 18446744073709551616

/-- Take up digits as long as the significand stays below the bound; the digits left over. -/
def absorb : (significand : Nat) → List Nat → Nat × List Nat
  | s, [] => (s, [])
  | s, d :: rest => if s * 10 + d < wordBound then absorb (s * 10 + d) rest else (s, d :: rest)

/-- The number nearest to `10 ^ n`, for `n` up to 308. -/
def powerOfTen (n : Nat) : Binary64 :=
  (Binary64.nearest? false (10 ^ n : Nat)).getD (Binary64.zero false)

/-- Divide by `10 ^ 308` up to `n` times, stopping at zero. -/
def divideDown : (n : Nat) → Binary64 → Option Binary64
  | 0, x => some x
  | n + 1, x => if x.significand = 0 then some x else (x.div? (powerOfTen 308)).bind (divideDown n)

/-- The significand times `10 ^ exponent`; `none` if that is too large. -/
def scaled? (negative : Bool) (significand : Nat) (exponent : Int) : Option Binary64 := do
  let x ← Binary64.ofNat? negative significand
  if exponent < 0 then
    let steps := (exponent.natAbs - 1) / 308
    let x ← divideDown steps x
    x.div? (powerOfTen (exponent.natAbs - 308 * steps))
  else if significand = 0 then some x
  else if 308 < exponent then none
  else x.mul? (powerOfTen exponent.toNat)

/-- The exponent that the digits spell. -/
def exponentValue (negative : Bool) (digits : List Nat) : Int :=
  if negative then -(digitsValue digits : Int) else digitsValue digits

/-- The floating-point reading. -/
def double (p : NumberParts) : Except JsonFlaw JsonNumber :=
  let (significand, dropped) := absorb 0 p.whole
  let (significand, surplus) := absorb significand p.fraction
  let places : Int := (dropped.length : Int) - (p.fraction.length - surplus.length : Nat)
  let shift := match p.exponent with
    | none => 0
    | some (negative, digits) => exponentValue negative digits
  match scaled? p.negative significand (places + shift) with
  | some x => .ok (.double x)
  | none => .error .numberTooLarge

/-- The value of the number. Minus zero is a floating-point number. -/
def value (p : NumberParts) : Except JsonFlaw JsonNumber :=
  match p.fraction, p.exponent, absorb 0 p.whole with
  | [], none, (n, []) =>
    if !p.negative then .ok (.whole n)
    else if n = 0 ∨ wordBound < 2 * n then p.double
    else .ok (.whole (-(n : Int)))
  | _, _, _ => p.double

end NumberParts

/-- The text of a number: digits for a whole one, else the shortest that reads back. -/
def JsonNumber.chars : JsonNumber → List Char
  | .whole n => if n < 0 then '-' :: Nat.toDigits 10 n.natAbs else Nat.toDigits 10 n.natAbs
  | .double x => x.chars

end Backtest
