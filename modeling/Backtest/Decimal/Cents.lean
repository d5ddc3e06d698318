/-
Amounts as reports show them, with two decimal places: surplus digits are rounded away, a half
going away from zero, and missing ones are filled with zeros as far as the magnitude allows.
-/
import Backtest.Decimal.Basic

namespace Backtest.Decimal

-- The power of naturals and integers is the one of the core library in every context.
attribute [local instance (high)] instPowNat

/-- The amount with at most `places` fraction digits nearest to `d`; a half goes away from zero. A
zero keeps its sign, but an amount that is rounded to zero has none. -/
def toPlaces (places : Nat) (d : Decimal) : Decimal :=
  if h : d.scale ≤ places then d
  else
    let magnitude := nearestAway d.magnitude (10 ^ (d.scale - places))
    ⟨d.negative && (d.magnitude == 0 || magnitude != 0), magnitude, places,
      Nat.lt_of_le_of_lt (nearestAway_le _ _) d.magnitude_lt,
      Nat.le_trans (Nat.le_of_not_le h) d.scale_le⟩

/-- The figure shown for `d` in a report. -/
def toCents (d : Decimal) : Decimal :=
  let rounded := d.toPlaces 2
  rounded.padZeros (2 - rounded.scale)

end Backtest.Decimal
