/-
Finite binary floating-point numbers of 64 bits: a sign, a significand of at most 53 bits and a
power of two. `Binary64.nearest?` is the one place where an exact magnitude becomes such a number;
products and quotients are the exact ones, rounded by it.
-/
import Backtest.Rounding

namespace Backtest

/-- Significands lie below `2 ^ 53`. -/
def Binary64.bound : Nat := 9007199254740992

/-- Full significands are those from `2 ^ 52` on. -/
def Binary64.leastFull : Nat := 4503599627370496

/-- The number `± significand · 2 ^ exponent`. The significand is full unless the exponent is the
least one, so each magnitude has one form; zero keeps its sign. -/
structure Binary64 where
  negative : Bool
  significand : Nat
  exponent : Int
  significand_lt : significand < Binary64.bound
  le_exponent : -1074 ≤ exponent
  exponent_le : exponent ≤ 971
  full : Binary64.leastFull ≤ significand ∨ exponent = -1074
  deriving DecidableEq

/-- The largest `e` with `2 ^ e ≤ q`, for positive `q`. -/
def floorLog2 (q : Rat) : Int :=
  let guess := (Nat.log2 q.num.toNat : Int) - Nat.log2 q.den
  if (2 : Rat) ^ guess ≤ q then guess else guess - 1

namespace Binary64

def magnitude (x : Binary64) : Rat :=
  (x.significand : Rat) * (2 : Rat) ^ x.exponent

def toRat (x : Binary64) : Rat :=
  if x.negative then -x.magnitude else x.magnitude

def zero (negative : Bool) : Binary64 :=
  ⟨negative, 0, -1074, by decide, by decide, by decide, .inr rfl⟩

/-- The number nearest to the magnitude `q`, a half going to the even significand; `none` if it is
too large. -/
def nearest? (negative : Bool) (q : Rat) : Option Binary64 :=
  if q ≤ 0 then some (zero negative)
  else
    let exponent := max (floorLog2 q - 52) (-1074)
    let significand := (nearestEven (q / (2 : Rat) ^ exponent)).toNat
    let (significand, exponent) :=
      if significand = bound then (leastFull, exponent + 1) else (significand, exponent)
    if h : significand < bound ∧ -1074 ≤ exponent ∧ exponent ≤ 971 ∧
        (leastFull ≤ significand ∨ exponent = -1074) then
      some ⟨negative, significand, exponent, h.1, h.2.1, h.2.2.1, h.2.2.2⟩
    else none

/-- Scale by a positive number, rounding once. -/
def mul? (x : Binary64) (factor : Binary64) : Option Binary64 :=
  nearest? x.negative (x.magnitude * factor.magnitude)

/-- Divide by a positive number, rounding once. -/
def div? (x : Binary64) (divisor : Binary64) : Option Binary64 :=
  nearest? x.negative (x.magnitude / divisor.magnitude)

/-- The number nearest to a natural number below `2 ^ 1024`. -/
def ofNat? (negative : Bool) (n : Nat) : Option Binary64 :=
  nearest? negative n

/-- The whole number that `x` is, if it is one and not below zero. -/
def toNat? (x : Binary64) : Option Nat :=
  if x.toRat.den = 1 ∧ 0 ≤ x.toRat then some x.toRat.num.toNat else none

end Binary64
end Backtest
