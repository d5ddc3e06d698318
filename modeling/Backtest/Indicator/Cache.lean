/-
The values of the indicators of one series, each computed once. A cache is a list in the order in
which the indicators were first asked for.
-/
import Backtest.Indicator.Average
import Backtest.Indicator.Strength

namespace Backtest

/-- The values of an indicator over the closes of a series. -/
def Indicator.values (closes : List Decimal) : Indicator → Except Fault Indicator.Values
  | price => .ok (closes.map some)
  | sma period => smaValues period closes
  | ema period => emaValues period closes
  | rsi period => rsiValues period closes

/-- Indicators with their values, no indicator twice. -/
structure IndicatorCache where
  entries : List (Indicator × Indicator.Values)

namespace IndicatorCache

def empty : IndicatorCache := ⟨[]⟩

def find? (cache : IndicatorCache) (i : Indicator) : Option Indicator.Values :=
  (cache.entries.find? (·.1 = i)).map (·.2)

/-- Compute the indicator over the closes unless its values are known. -/
def ensure (cache : IndicatorCache) (closes : List Decimal) (i : Indicator) :
    Except Fault IndicatorCache :=
  match cache.find? i with
  | some _ => .ok cache
  | none => do
    let values ← i.values closes
    return ⟨cache.entries ++ [(i, values)]⟩

@[simp] theorem find?_empty (i : Indicator) : empty.find? i = none := rfl

/-- What is known stays known. -/
theorem ensure_of_find? {cache : IndicatorCache} {i : Indicator} {values : Indicator.Values}
    (h : cache.find? i = some values) (closes : List Decimal) :
    cache.ensure closes i = .ok cache := by
  simp [ensure, h]

/-- What is not known is computed and added. -/
theorem ensure_of_values {cache : IndicatorCache} {closes : List Decimal} {i : Indicator}
    {values : Indicator.Values} (h : cache.find? i = none) (hv : i.values closes = .ok values) :
    cache.ensure closes i = .ok ⟨cache.entries ++ [(i, values)]⟩ := by
  simp [ensure, h, hv, bind, Except.bind, pure, Except.pure]

/-- The view of an entry at the end: an earlier one counts before it. -/
theorem find?_append (cache : IndicatorCache) (i j : Indicator) (values : Indicator.Values) :
    find? ⟨cache.entries ++ [(i, values)]⟩ j =
      (cache.find? j).or (if i = j then some values else none) := by
  unfold find?
  rw [List.find?_append]
  cases cache.entries.find? (·.1 = j) with
  | some e => rfl
  | none => by_cases h : i = j <;> simp [h]

/-- Compute several indicators, in order. -/
def ensureAll (cache : IndicatorCache) (closes : List Decimal) :
    List Indicator → Except Fault IndicatorCache
  | [] => .ok cache
  | i :: rest => do
    let cache ← cache.ensure closes i
    cache.ensureAll closes rest

/-- The value of an indicator at an index: none for one that was never computed. -/
def value? (cache : IndicatorCache) (i : Indicator) (index : Nat) : Option Decimal :=
  (cache.find? i).bind (·.at? index)

def size (cache : IndicatorCache) : Nat :=
  cache.entries.length

/-- The indicators in the order of their texts. -/
def indicators (cache : IndicatorCache) : List Indicator :=
  (cache.entries.map (·.1)).mergeSort fun a b => decide (a.text ≤ b.text)

end IndicatorCache
end Backtest
