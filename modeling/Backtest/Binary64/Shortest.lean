/-
The shortest text of a floating-point number: the fewest significant digits that read back as the
number and, of those, the ones nearest to it. Digits are found on the decimal grids of one, two, …
digits: if any point of a grid reads back, one of the number's two neighbours on it does. The
layout is positional from `1e-5` up to `1e16`, always with a fraction digit, and has an exponent
with a sign elsewhere.
-/
import Backtest.Binary64.Basic

namespace Backtest

/-- The number of decimal digits. -/
def digitCount (n : Nat) : Nat :=
  (Nat.toDigits 10 n).length

/-- The largest `e` with `10 ^ e ≤ q`, for positive `q`. -/
def floorLog10 (q : Rat) : Int :=
  let guess := (digitCount q.num.toNat : Int) - digitCount q.den
  if (10 : Rat) ^ guess ≤ q then guess else guess - 1

namespace Binary64

/-- Whether a magnitude lies in the interval that rounds to `x`, whose ends belong to it exactly
when the significand is even. -/
def covers (x : Binary64) (q : Rat) : Bool :=
  let gap := (2 : Rat) ^ x.exponent
  let gapBelow := if x.significand = leastFull ∧ x.exponent ≠ -1074 then gap / 2 else gap
  let low := x.magnitude - gapBelow / 2
  let high := x.magnitude + gap / 2
  if x.significand % 2 = 0 then low ≤ q && q ≤ high else low < q && q < high

/-- The point of the grid of multiples of `10 ^ unit` that reads back as `x`, if there is one: the
nearer of two, the even one on a tie. -/
def onGrid? (x : Binary64) (unit : Int) : Option Nat :=
  let position := x.magnitude / (10 : Rat) ^ unit
  let below := position.floor.toNat
  let hit (n : Nat) : Bool := x.covers ((n : Rat) * (10 : Rat) ^ unit)
  match hit below, hit (below + 1) with
  | true, true => some (nearestEven position).toNat
  | true, false => some below
  | false, true => some (below + 1)
  | false, false => none

/-- Search the grids of `17 - left`, …, 17 digits below the leading power of ten `lead`. -/
def searchGrids (x : Binary64) (lead : Int) : (left : Nat) → Nat × Int
  | 0 => ((nearestEven (x.magnitude / (10 : Rat) ^ (lead - 16))).toNat, lead - 16)
  | left + 1 =>
    let unit := lead - 16 + (left + 1)
    match x.onGrid? unit with
    | some n => (n, unit)
    | none => searchGrids x lead left

/-- The shortest digits `d` and the exponent `e` for which `d · 10 ^ e` reads back as the magnitude
of `x`. -/
def shortest (x : Binary64) : Nat × Int :=
  if x.significand = 0 then (0, 0) else searchGrids x (floorLog10 x.magnitude) 16

/-! ## Layout -/

/-- The digits without zeros at their end, and the power of ten that makes up for them. -/
def trimDigits (digits : List Char) (exponent : Int) : List Char × Int :=
  let kept := (digits.reverse.dropWhile (· == '0')).reverse
  (kept, exponent + (digits.length - kept.length : Nat))

/-- Digits with the point `places` digits after their start. -/
def positional (digits : List Char) (places : Int) : List Char :=
  if places ≤ 0 then
    '0' :: '.' :: List.replicate (-places).toNat '0' ++ digits
  else
    let whole := digits.take places.toNat
    let fraction := digits.drop places.toNat
    whole ++ List.replicate (places.toNat - digits.length) '0' ++ '.' ::
      (if fraction = [] then ['0'] else fraction)

/-- Digits with the point after the first one, and an exponent. -/
def exponential (digits : List Char) (exponent : Int) : List Char :=
  let fraction := digits.drop 1
  let mark := if exponent < 0 then ['e', '-'] else ['e', '+']
  digits.take 1 ++ (if fraction = [] then [] else '.' :: fraction) ++ mark ++
    Nat.toDigits 10 exponent.natAbs

def chars (x : Binary64) : List Char :=
  let sign := if x.negative then ['-'] else []
  let (n, unit) := x.shortest
  if n = 0 then sign ++ ['0', '.', '0']
  else
    let (digits, unit) := trimDigits (Nat.toDigits 10 n) unit
    let lead := unit + digits.length - 1
    sign ++ if -5 ≤ lead ∧ lead < 16 then positional digits (lead + 1) else exponential digits lead

/-- The shortest text that reads back as `x`. -/
def text (x : Binary64) : String :=
  String.ofList x.chars

end Binary64
end Backtest
