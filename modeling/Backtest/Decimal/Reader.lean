/-
Reading decimal amounts from text. The plain form is a sign, digits with at most one point, and
underscores after the first digit; digits beyond what an amount can hold are rounded off, and zero
has no sign. The scientific form is a plain base, `e` or `E`, and a whole exponent of at most 28 in
magnitude. `read` tries the plain form first and reports the trouble of the scientific one.
-/
import Backtest.Decimal.Basic
import Backtest.Digits

namespace Backtest
namespace Decimal

-- The power of naturals and integers is the one of the core library in every context.
attribute [local instance (high)] instPowNat

/-- Why a text is no decimal amount. -/
inductive ReadError where
  | empty
  | secondPoint
  | leadingSeparator
  | unknownCharacter
  | noDigits
  /-- The digits before the point alone are too many. -/
  | tooManyDigits
  /-- Rounding the last digit up leaves no room. -/
  | roundedOut
  /-- There is no exponent, or it is not a whole number of 32 bits. -/
  | noExponent
  | exponentTooLarge (exponent : Nat)
  | valueTooLarge
  deriving DecidableEq, Repr

def ReadError.message : ReadError → String
  | empty => "Invalid decimal: empty"
  | secondPoint => "Invalid decimal: two decimal points"
  | leadingSeparator => "Invalid decimal: must start lead with a number"
  | unknownCharacter => "Invalid decimal: unknown character"
  | noDigits => "Invalid decimal: no digits found"
  | tooManyDigits => "Invalid decimal: overflow from too many digits"
  | roundedOut => "Invalid decimal: overflow from mantissa after rounding"
  | noExponent => "Failed to parse"
  | exponentTooLarge n => s!"Scale exceeds the maximum precision allowed: {n} > 28"
  | valueTooLarge => "Number exceeds maximum value that can be represented."

/-- The amount of the digits read, where zero has no sign. -/
def ofParts (negative : Bool) (magnitude scale : Nat) (hm : magnitude < bound)
    (hs : scale ≤ 28) : Decimal :=
  ⟨negative && magnitude != 0, magnitude, scale, hm, hs⟩

/-! ## Plain form -/

/-- Fraction digits past the last one kept are dropped, but must still be well formed. -/
def checkSurplus : List Char → Except ReadError Unit
  | [] => .ok ()
  | c :: rest =>
    if (digit? c).isSome ∨ c = '_' then checkSurplus rest
    else if c = '.' then .error .secondPoint
    else .error .unknownCharacter

/-- Round the magnitude up if the first dropped digit is at least five; if that fills it, one more
digit is dropped. -/
def roundOff (negative : Bool) (magnitude scale next : Nat) (hm : magnitude < bound)
    (hs : scale ≤ 28) : Except ReadError Decimal :=
  if next < 5 then .ok (ofParts negative magnitude scale hm hs)
  else if h : magnitude + 1 < bound then .ok (ofParts negative (magnitude + 1) scale h hs)
  else if scale = 0 then .error .roundedOut
  else .ok (ofParts negative ((magnitude + 5) / 10) (scale - 1) (by omega) (by omega))

/-- Round off in front of a surplus, of which the first digit decides. -/
def roundBefore (negative : Bool) (surplus : List Char) (magnitude scale : Nat)
    (hm : magnitude < bound) (hs : scale ≤ 28) : Except ReadError Decimal := do
  let d ← roundOff negative magnitude scale ((surplus.head?.bind digit?).getD 0) hm hs
  checkSurplus surplus
  return d

/-- A magnitude is long from here on, 255 below a tenth of the largest whole number of 64 bits. -/
def longMagnitude : Nat := 1844674407370954906

/-- The surplus after the last of 28 fraction digits. Underscores at its front are passed over if
the magnitude was long before its last digit; else the first one counts as a zero. -/
def surplusAfter (magnitude : Nat) (text : List Char) : List Char :=
  if magnitude / 10 < longMagnitude then text else text.dropWhile (· == '_')

/-- Read on after a magnitude read so far, of which `scale` digits stood after the point. -/
def readDigits (negative : Bool) : List Char → (point digits : Bool) → (magnitude scale : Nat) →
    magnitude < bound → scale ≤ 28 → Except ReadError Decimal
  | [], _, digits, magnitude, scale, hm, hs =>
    if digits then .ok (ofParts negative magnitude scale hm hs) else .error .noDigits
  | c :: rest, point, digits, magnitude, scale, hm, hs =>
    if room : scale < 28 then
      match digit? c with
      | some d =>
        if fits : magnitude * 10 + d < bound then
          if point then
            readDigits negative rest point true (magnitude * 10 + d) (scale + 1) fits room
          else readDigits negative rest point true (magnitude * 10 + d) scale fits hs
        else if point then roundBefore negative (c :: rest) magnitude scale hm hs
        else .error .tooManyDigits
      | none =>
        if c = '.' then
          if point then .error .secondPoint
          else readDigits negative rest true digits magnitude scale hm hs
        else if c = '_' then
          if digits then readDigits negative rest point digits magnitude scale hm hs
          else .error .leadingSeparator
        else .error .unknownCharacter
    else roundBefore negative (surplusAfter magnitude (c :: rest)) magnitude scale hm hs

/-- Read digits from the first one on. -/
def readUnsigned (negative : Bool) (text : List Char) : Except ReadError Decimal :=
  readDigits negative text false false 0 0 zero.magnitude_lt zero.scale_le

/-- Read the plain form. -/
def readPlain : List Char → Except ReadError Decimal
  | [] => .error .empty
  | '-' :: rest => readUnsigned true rest
  | '+' :: rest => readUnsigned false rest
  | text => readUnsigned false text

/-! ## Scientific form -/

/-- The largest whole number of 32 bits. -/
def maxWord : Nat := 4294967295

/-- A whole number of 32 bits, in digits after at most one plus sign. -/
def readWord (text : List Char) : Option Nat :=
  let digits := match text with
    | '+' :: rest => rest
    | _ => text
  if digits = [] then none
  else
    match digits.mapM digit? with
    | none => none
    | some values =>
      let n := digitsValue values
      if n ≤ maxWord then some n else none

/-- Divide by `10 ^ n`, where the scale becomes 28 at most: the digits that would lie beyond are
rounded off first, which leaves the sign even to zero. -/
def shiftDown (n : Nat) (d : Decimal) : Decimal :=
  if h : d.scale + n ≤ 28 then ⟨d.negative, d.magnitude, d.scale + n, d.magnitude_lt, h⟩
  else
    ⟨d.negative, nearestAway d.magnitude (10 ^ (d.scale - (28 - n))), 28,
      Nat.lt_of_le_of_lt (nearestAway_le _ _) d.magnitude_lt, by omega⟩

/-- Multiply by `10 ^ n`. -/
def shiftUp (n : Nat) (d : Decimal) : Except ReadError Decimal :=
  if n ≤ d.scale then
    .ok ⟨d.negative, d.magnitude, d.scale - n, d.magnitude_lt,
      Nat.le_trans (Nat.sub_le _ _) d.scale_le⟩
  else if 28 < n then .error (.exponentTooLarge n)
  else
    let magnitude := d.magnitude * 10 ^ (n - d.scale)
    if fits : magnitude < bound then .ok ⟨d.negative, magnitude, 0, fits, by omega⟩
    else .error .valueTooLarge

/-- Read the scientific form. -/
def readScientific (text : List Char) : Except ReadError Decimal :=
  let isMark := fun c : Char => c == 'e' || c == 'E'
  let base := text.takeWhile (fun c => !isMark c)
  match text.dropWhile (fun c => !isMark c) with
  | [] => .error .noExponent
  | _ :: exponent => do
    let d ← readPlain base
    match exponent with
    | '-' :: digits =>
      match readWord digits with
      | none => .error .noExponent
      | some n => if n ≤ 28 then .ok (shiftDown n d) else .error (.exponentTooLarge n)
    | digits =>
      match readWord digits with
      | none => .error .noExponent
      | some n => shiftUp n d

/-- Read an amount in either form. -/
def read (text : List Char) : Except ReadError Decimal :=
  match readPlain text with
  | .ok d => .ok d
  | .error _ => readScientific text

/-- The amount that a text denotes, in either form. -/
def ofText? (text : String) : Option Decimal :=
  (read text.toList).toOption

end Decimal
end Backtest
