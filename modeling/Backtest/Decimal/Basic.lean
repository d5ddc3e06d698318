/-
Decimal amounts: a sign and a whole magnitude below `2 ^ 96` over a power of ten of at most
`10 ^ 28`. The value of an amount is the exact ratio `Decimal.toRat`; two amounts may have one
value and differ in scale (`1.5` and `1.50`) or, if they are zero, in sign, which only their texts
show. Comparison is by value.

`Decimal.nearest?` is the one place where an exact ratio becomes an amount again.
-/
import Backtest.Rounding

namespace Backtest

/-- Magnitudes lie below `2 ^ 96`. -/
def Decimal.bound : Nat := 79228162514264337593543950336

/-- The amount `± magnitude / 10 ^ scale`. -/
structure Decimal where
  negative : Bool
  magnitude : Nat
  scale : Nat
  magnitude_lt : magnitude < Decimal.bound
  scale_le : scale ≤ 28
  deriving DecidableEq

namespace Decimal

-- The power of naturals and integers is the one of the core library in every context.
attribute [local instance (high)] instPowNat

/-- The magnitude with its sign. -/
def coefficient (d : Decimal) : Int :=
  if d.negative then -(d.magnitude : Int) else d.magnitude

@[simp] theorem natAbs_coefficient (d : Decimal) : d.coefficient.natAbs = d.magnitude := by
  unfold coefficient
  split <;> simp

/-- The amount of the given coefficient, where zero has no sign. -/
def ofCoefficient (coefficient : Int) (scale : Nat) (hc : coefficient.natAbs < bound)
    (hs : scale ≤ 28) : Decimal :=
  ⟨decide (coefficient < 0), coefficient.natAbs, scale, hc, hs⟩

@[simp] theorem coefficient_ofCoefficient (coefficient : Int) (scale : Nat)
    (hc : coefficient.natAbs < bound) (hs : scale ≤ 28) :
    (ofCoefficient coefficient scale hc hs).coefficient = coefficient := by
  unfold ofCoefficient Decimal.coefficient
  by_cases h : coefficient < 0
  · simp only [h, decide_true, if_true]
    omega
  · simp only [h, decide_false, Bool.false_eq_true, if_false]
    omega

/-- The exact value. -/
def toRat (d : Decimal) : Rat :=
  d.coefficient / (10 : Rat) ^ d.scale

instance : LT Decimal := ⟨fun a b => a.toRat < b.toRat⟩

instance : LE Decimal := ⟨fun a b => a.toRat ≤ b.toRat⟩

instance (a b : Decimal) : Decidable (a < b) := inferInstanceAs (Decidable (a.toRat < b.toRat))

instance (a b : Decimal) : Decidable (a ≤ b) := inferInstanceAs (Decidable (a.toRat ≤ b.toRat))

/-- Equality of values, whatever the scales. -/
def sameValue (a b : Decimal) : Bool :=
  a.toRat = b.toRat

def zero : Decimal := ⟨false, 0, 0, by decide, by decide⟩

def one : Decimal := ⟨false, 1, 0, by decide, by decide⟩

def hundred : Decimal := ⟨false, 100, 0, by decide, by decide⟩

instance : Inhabited Decimal := ⟨zero⟩

/-- Above zero, read off the coefficient. -/
def IsPositive (d : Decimal) : Prop := 0 < d.coefficient

instance (d : Decimal) : Decidable d.IsPositive := inferInstanceAs (Decidable (0 < d.coefficient))

/-- The amount with the other sign, also for zero. -/
protected def neg (d : Decimal) : Decimal :=
  { d with negative := !d.negative }

instance : Neg Decimal := ⟨Decimal.neg⟩

@[simp] theorem coefficient_neg (d : Decimal) : (-d).coefficient = -d.coefficient := by
  change (Decimal.neg d).coefficient = _
  unfold Decimal.neg coefficient
  cases d.negative <;> simp only [Bool.not_false, Bool.not_true, Bool.false_eq_true, if_true,
    if_false, Int.neg_neg]

/-- The larger of two amounts; the second of two equal ones. -/
protected def max (a b : Decimal) : Decimal :=
  if a ≤ b then b else a

instance : Max Decimal := ⟨Decimal.max⟩

/-- The largest whole amount that is not above `d`. -/
def floor (d : Decimal) : Decimal :=
  ofCoefficient (d.coefficient / 10 ^ d.scale) 0
    (Nat.lt_of_le_of_lt (Int.natAbs_ediv_le_natAbs _ _) (d.natAbs_coefficient ▸ d.magnitude_lt))
    (by decide)

/-! ## Rounding -/

/-- The amount of the given scale nearest to `q`, a half going to the even coefficient; `none` if
its coefficient is too large. -/
def atScale? (q : Rat) (scale : Nat) (h : scale ≤ 28) : Option Decimal :=
  let coefficient := nearestEven (q * 10 ^ scale)
  if fits : coefficient.natAbs < bound then some (ofCoefficient coefficient scale fits h) else none

/-- The nearest amount at the largest scale, from `scale` down, whose coefficient fits. -/
def fromScale? (q : Rat) : (scale : Nat) → scale ≤ 28 → Option Decimal
  | 0, h => atScale? q 0 h
  | scale + 1, h =>
    match atScale? q (scale + 1) h with
    | some d => some d
    | none => fromScale? q scale (Nat.le_of_succ_le h)

/-- The amount that stands for the exact value `q`: as many fraction digits as fit, up to 28, and
the nearest amount with that many, a half going to the even one. `none` if not even the nearest
whole number fits. -/
def nearest? (q : Rat) : Option Decimal :=
  fromScale? q 28 (Nat.le_refl 28)

/-! ## Scale -/

/-- The same value with no zero at the end of its fraction digits, and no sign if it is zero. -/
def trimZeros : (coefficient : Int) → (scale : Nat) → coefficient.natAbs < bound → scale ≤ 28 →
    Decimal
  | c, 0, hc, hs => ofCoefficient c 0 hc hs
  | c, s + 1, hc, hs =>
    if c % 10 = 0 then
      trimZeros (c / 10) s (Nat.lt_of_le_of_lt (Int.natAbs_ediv_le_natAbs _ _) hc)
        (Nat.le_of_succ_le hs)
    else ofCoefficient c (s + 1) hc hs

/-- The amount of the same value with the fewest fraction digits. -/
def normalize (d : Decimal) : Decimal :=
  trimZeros d.coefficient d.scale (d.natAbs_coefficient ▸ d.magnitude_lt) d.scale_le

/-- Append up to `n` zero fraction digits, one at a time, as long as the magnitude fits. -/
def padZeros : (n : Nat) → Decimal → Decimal
  | 0, d => d
  | n + 1, d =>
    if h : d.magnitude * 10 < bound ∧ d.scale + 1 ≤ 28 then
      padZeros n ⟨d.negative, d.magnitude * 10, d.scale + 1, h.1, h.2⟩
    else d

end Decimal
end Backtest
