/-
Indicators: what can be computed from the closes of a series. The values of an indicator are one
per close, undefined during its warm-up.
-/
import Backtest.Decimal.Arithmetic

namespace Backtest

/-- The close itself, the simple and the exponential moving average, and the relative strength
index; all but the first over a period, counted in bars. -/
inductive Indicator where
  | price
  | sma (period : Nat)
  | ema (period : Nat)
  | rsi (period : Nat)
  deriving DecidableEq, Repr

namespace Indicator

def chars : Indicator → List Char
  | price => "PRICE".toList
  | sma period => "SMA(".toList ++ Nat.toDigits 10 period ++ [')']
  | ema period => "EMA(".toList ++ Nat.toDigits 10 period ++ [')']
  | rsi period => "RSI(".toList ++ Nat.toDigits 10 period ++ [')']

def text (i : Indicator) : String :=
  String.ofList i.chars

/-- One value per close. -/
abbrev Values := List (Option Decimal)

/-- The value at an index: undefined during the warm-up and past the end. -/
def Values.at? (values : Values) (index : Nat) : Option Decimal :=
  values[index]?.join

/-- Values of which none is defined. -/
def undefined (length : Nat) : Values :=
  List.replicate length none

@[simp] theorem length_undefined (length : Nat) : (undefined length).length = length :=
  List.length_replicate

@[simp] theorem at?_undefined (length index : Nat) : (undefined length).at? index = none := by
  unfold Values.at? undefined
  cases h : (List.replicate length (none : Option Decimal))[index]? with
  | none => rfl
  | some v =>
    obtain ⟨_, rfl⟩ := List.getElem?_eq_some_iff.mp h
    simp

theorem Values.at?_of_length_le {values : Values} {index : Nat} (h : values.length ≤ index) :
    values.at? index = none := by
  unfold Values.at?
  rw [List.getElem?_eq_none h]
  rfl

/-- Feed the closes one by one to a step, which shows a value for each of them. -/
def scan {σ : Type} (step : σ → Decimal → Except Fault (σ × Option Decimal)) :
    σ → List Decimal → Except Fault Values
  | _, [] => .ok []
  | state, close :: rest => do
    let (state, shown) ← step state close
    let values ← scan step state rest
    return shown :: values

/-- A scan shows one value per close. -/
theorem length_scan {σ : Type} {step : σ → Decimal → Except Fault (σ × Option Decimal)}
    {state : σ} {closes : List Decimal} {values : Values}
    (h : scan step state closes = .ok values) : values.length = closes.length := by
  induction closes generalizing state values with
  | nil => cases h; rfl
  | cons close rest ih =>
    unfold scan at h
    cases hs : step state close with
    | error _ => rw [hs] at h; cases h
    | ok shown =>
      cases hr : scan step shown.1 rest with
      | error _ => simp [hs, hr, bind, Except.bind] at h
      | ok later =>
        simp only [hs, hr, bind, Except.bind, pure, Except.pure, Except.ok.injEq] at h
        subst h
        simp [ih hr]

end Indicator
end Backtest
