/-
Indicators by indices. The loops below read the closes by their indices and count down from indices
and periods; each shows the same as the scan that keeps what it needs in its state. So no index is
past the end and no count falls below zero.
-/
import Backtest.Proofs.Indexed.Basic

namespace Backtest

namespace Indicator

/-! ## Simple average -/

/-- Add the close at the index, and take off the one that leaves the window. -/
def smaStepAt (period : Nat) (closes : List Decimal) (sum : Decimal) (index : Nat) :
    Except Stop (Decimal × Option Decimal) := do
  let close ← entryAt closes index
  let sum ← calculated (sum.add close)
  let sum ←
    if period ≤ index then do
      let left ← entryAt closes (← countDown index period)
      calculated (sum.sub left)
    else pure sum
  if index + 1 < period then return (sum, none)
  else return (sum, some (← calculated (sum.part period)))

def smaValuesAt (period : Nat) (closes : List Decimal) : Except Stop Values :=
  if period = 0 then .ok (undefined closes.length)
  else scanAt (smaStepAt period closes) .zero (List.range closes.length)

/-- The window before an index. -/
def windowAt (period : Nat) (closes : List Decimal) (index : Nat) (sum : Decimal) : Window :=
  ⟨min index period, sum, closes.drop (index - period)⟩

theorem smaStepAt_eq_slide {period : Nat} {closes : List Decimal} {index : Nat} {close : Decimal}
    (hc : closes[index]? = some close) (sum : Decimal) :
    (fun p => (windowAt period closes (index + 1) p.1, p.2)) <$> smaStepAt period closes sum index =
      calculated ((windowAt period closes index sum).slide period close) := by
  unfold smaStepAt Window.slide windowAt
  rw [entryAt_of_getElem? hc]
  rcases Nat.lt_or_ge index period with hi | hi
  · -- the window is not full yet, so nothing leaves it
    rw [Nat.min_eq_left (Nat.le_of_lt hi), Nat.min_eq_left (Nat.succ_le_of_lt hi),
      Nat.sub_eq_zero_of_le (Nat.le_of_lt hi), Nat.sub_eq_zero_of_le (Nat.succ_le_of_lt hi)]
    simp only [ok_bind, pure_bind, map_bind, calculated_bind, if_neg (Nat.not_le.2 hi), if_pos hi]
    refine congrArg _ (funext fun sum => ?_)
    split
    · rfl
    · simp only [map_bind, calculated_bind, map_pure, calculated_pure]
  · obtain ⟨left, hl⟩ : ∃ left, closes[index - period]? = some left :=
      ⟨_, List.getElem?_eq_getElem (by have := (List.getElem?_eq_some_iff.1 hc).1; omega)⟩
    have leaving : closes.drop (index - period) = left :: closes.drop (index + 1 - period) := by
      rw [List.drop_eq_getElem?_toList_append, hl, Nat.sub_add_comm hi]
      rfl
    rw [Nat.min_eq_right hi, Nat.min_eq_right (Nat.le_succ_of_le hi), leaving]
    simp only [ok_bind, pure_bind, map_bind, map_pure, calculated_bind, calculated_pure, if_pos hi,
      countDown_of_le hi, entryAt_of_getElem? hl, if_neg (Nat.lt_irrefl period),
      if_neg (by omega : ¬ index + 1 < period), List.drop_succ_cons, List.drop_zero]

theorem smaValuesAt_eq (period : Nat) (closes : List Decimal) :
    smaValuesAt period closes = calculated (smaValues period closes) := by
  unfold smaValuesAt smaValues
  split
  · rfl
  · have start : windowAt period closes 0 .zero = ⟨0, .zero, closes⟩ := by
      unfold windowAt
      rw [Nat.zero_min, Nat.zero_sub, List.drop_zero]
    rw [List.range_eq_range', scanAt_eq_scan (windowAt period closes) 0
      (fun index close sum _ hc => smaStepAt_eq_slide hc sum) closes .zero (Nat.le_refl 0)
      List.drop_zero, start]

/-! ## Exponential average -/

/-- Add the close at the index during the warm-up, and move the average by it after that. The state
is the average and the sum. -/
def emaStepAt (period : Nat) (fraction : Decimal) (closes : List Decimal)
    (state : Decimal × Decimal) (index : Nat) :
    Except Stop ((Decimal × Decimal) × Option Decimal) := do
  let (average, sum) := state
  let close ← entryAt closes index
  let last ← countDown period 1
  if index < last then
    let sum ← calculated (sum.add close)
    return ((average, sum), none)
  else if index = last then
    let sum ← calculated (sum.add close)
    let average ← calculated (sum.part period)
    return ((average, sum), some average)
  else
    let distance ← calculated (close.sub average)
    let average ← calculated (average.add (← calculated (fraction.mul distance)))
    return ((average, sum), some average)

def emaValuesAt (period : Nat) (closes : List Decimal) : Except Stop Values :=
  if period = 0 then .ok (undefined closes.length)
  else do
    let fraction ← calculated (Decimal.ratio 2 (period + 1))
    scanAt (emaStepAt period fraction closes) (.zero, .zero) (List.range closes.length)

/-- The average before an index. -/
def trendAt (period index : Nat) (state : Decimal × Decimal) : Trend :=
  if index < period then .warming index state.2 else .moving state.1

theorem emaStepAt_eq_advance {period : Nat} {fraction : Decimal} {closes : List Decimal}
    {index : Nat} {close : Decimal} (hp : period ≠ 0) (hc : closes[index]? = some close)
    (state : Decimal × Decimal) :
    (fun p => (trendAt period (index + 1) p.1, p.2)) <$>
        emaStepAt period fraction closes state index =
      calculated ((trendAt period index state).advance period fraction close) := by
  unfold emaStepAt trendAt
  rw [entryAt_of_getElem? hc, countDown_of_le (Nat.one_le_iff_ne_zero.2 hp)]
  rcases Nat.lt_trichotomy index (period - 1) with hi | hi | hi
  · have before : index < period := by omega
    have next : index + 1 < period := by omega
    simp only [ok_bind, map_bind, map_pure, calculated_bind, calculated_pure, if_pos hi,
      if_pos before, if_pos next, Trend.advance]
  · have before : index < period := by omega
    have next : ¬ index + 1 < period := by omega
    have not_before : ¬ index < period - 1 := by omega
    simp only [ok_bind, map_bind, map_pure, calculated_bind, calculated_pure, if_neg not_before,
      if_pos hi, if_pos before, if_neg next, Trend.advance]
  · have after : ¬ index < period := by omega
    have next : ¬ index + 1 < period := by omega
    simp only [ok_bind, map_bind, map_pure, calculated_bind, calculated_pure,
      if_neg (Nat.lt_asymm hi), if_neg (Nat.ne_of_gt hi), if_neg after, if_neg next, Trend.advance]

theorem emaValuesAt_eq (period : Nat) (closes : List Decimal) :
    emaValuesAt period closes = calculated (emaValues period closes) := by
  unfold emaValuesAt emaValues
  split
  · rfl
  · next hp =>
    have start : trendAt period 0 (.zero, .zero) = .warming 0 .zero :=
      if_pos (Nat.pos_of_ne_zero hp)
    rw [calculated_bind]
    refine congrArg _ (funext fun fraction => ?_)
    rw [List.range_eq_range', scanAt_eq_scan (trendAt period) 0
      (fun index close state _ hc => emaStepAt_eq_advance hp hc state) closes _ (Nat.le_refl 0)
      List.drop_zero, start]

/-! ## Strength -/

/-- The average after one more change, with the weight that the average has in it. -/
def smoothAt (period weight : Nat) (average change : Decimal) : Except Stop Decimal := do
  let total ← calculated ((← calculated (average.times weight)).add change)
  calculated (total.part period)

/-- Take the change from the index before into the average gain and loss. -/
def rsiStepAt (period weight : Nat) (closes : List Decimal) (state : Decimal × Decimal)
    (index : Nat) : Except Stop ((Decimal × Decimal) × Option Decimal) := do
  let (gain, loss) := state
  let close ← entryAt closes index
  let last ← entryAt closes (← countDown index 1)
  let change ← calculated (close.sub last)
  if index < period then
    let gain ← calculated (gain.add (max change .zero))
    let loss ← calculated (loss.add (max (-change) .zero))
    return ((gain, loss), none)
  else if index = period then
    let gain ← calculated ((← calculated (gain.add (max change .zero))).part period)
    let loss ← calculated ((← calculated (loss.add (max (-change) .zero))).part period)
    return ((gain, loss), some (← calculated (strength gain loss)))
  else
    let gain ← smoothAt period weight gain (max change .zero)
    let loss ← smoothAt period weight loss (max (-change) .zero)
    return ((gain, loss), some (← calculated (strength gain loss)))

def rsiValuesAt (period : Nat) (closes : List Decimal) : Except Stop Values :=
  if period = 0 ∨ closes.length ≤ period then .ok (undefined closes.length)
  else do
    let weight ← countDown period 1
    let values ← scanAt (rsiStepAt period weight closes) (.zero, .zero)
      (List.range' 1 (closes.length - 1))
    return none :: values

/-- What is known before an index other than the first. -/
def momentumAt (period : Nat) (closes : List Decimal) (index : Nat) (state : Decimal × Decimal) :
    Momentum :=
  let last := closes[index - 1]?.getD .zero
  if index ≤ period then .summing (index - 1) last state.1 state.2
  else .averaging last state.1 state.2

theorem calculated_smooth (period : Nat) (average change : Decimal) :
    calculated (smooth period average change) = smoothAt period (period - 1) average change := by
  unfold smooth smoothAt
  simp only [calculated_bind]

theorem rsiStepAt_eq_advance {period : Nat} {closes : List Decimal} {index : Nat} {close : Decimal}
    (hi : 1 ≤ index) (hc : closes[index]? = some close) (state : Decimal × Decimal) :
    (fun p => (momentumAt period closes (index + 1) p.1, p.2)) <$>
        rsiStepAt period (period - 1) closes state index =
      calculated ((momentumAt period closes index state).advance period close) := by
  obtain ⟨last, hl⟩ : ∃ last, closes[index - 1]? = some last :=
    ⟨_, List.getElem?_eq_getElem (by have := (List.getElem?_eq_some_iff.1 hc).1; omega)⟩
  unfold rsiStepAt momentumAt
  rw [entryAt_of_getElem? hc, countDown_of_le hi, Nat.add_sub_cancel, hc, hl]
  rcases Nat.lt_trichotomy index period with hp | hp | hp
  · have now : index ≤ period := Nat.le_of_lt hp
    have count : index - 1 + 1 = index := by omega
    simp only [ok_bind, map_bind, map_pure, calculated_bind, calculated_pure, entryAt_of_getElem? hl,
      if_pos hp, if_pos now, if_pos (Nat.succ_le_of_lt hp), Option.getD_some, Momentum.advance,
      count]
  · have now : index ≤ period := Nat.le_of_eq hp
    have no_more : ¬ index - 1 + 1 < period := by omega
    have next : ¬ index + 1 ≤ period := by omega
    simp only [ok_bind, map_bind, map_pure, calculated_bind, calculated_pure, entryAt_of_getElem? hl,
      if_neg (Nat.not_lt.2 (Nat.le_of_eq hp.symm)), if_pos hp, if_pos now, if_neg next,
      Option.getD_some, Momentum.advance, if_neg no_more]
  · have above : ¬ index ≤ period := by omega
    have next : ¬ index + 1 ≤ period := by omega
    simp only [ok_bind, map_bind, map_pure, calculated_bind, calculated_pure, entryAt_of_getElem? hl,
      if_neg (Nat.lt_asymm hp), if_neg (Nat.ne_of_gt hp), if_neg above, if_neg next,
      Option.getD_some, Momentum.advance, calculated_smooth]

theorem rsiValuesAt_eq (period : Nat) (closes : List Decimal) :
    rsiValuesAt period closes = calculated (rsiValues period closes) := by
  unfold rsiValuesAt rsiValues
  split
  · rfl
  · next defined =>
    rw [not_or, Nat.not_le] at defined
    rcases closes with _ | ⟨close, rest⟩
    · exact absurd defined.2 (Nat.not_lt_zero period)
    · have start :
          momentumAt period (close :: rest) 1 (.zero, .zero) = .summing 0 close .zero .zero :=
        if_pos (Nat.one_le_iff_ne_zero.2 defined.1)
      have loop := scanAt_eq_scan (momentumAt period (close :: rest)) 1
        (fun index close state hi hc => rsiStepAt_eq_advance hi hc state) rest (.zero, .zero)
        (Nat.le_refl 1) rfl
      rw [countDown_of_le (Nat.one_le_iff_ne_zero.2 defined.1), scan]
      simp only [ok_bind, calculated_bind, calculated_pure, Momentum.advance, List.length_cons,
        Nat.add_sub_cancel, loop, start]

end Indicator

/-! ## Caches -/

/-- The values of an indicator over the closes of a series, by indices. -/
def Indicator.valuesAt (closes : List Decimal) : Indicator → Except Stop Indicator.Values
  | price => .ok (closes.map some)
  | sma period => smaValuesAt period closes
  | ema period => emaValuesAt period closes
  | rsi period => rsiValuesAt period closes

theorem Indicator.valuesAt_eq (closes : List Decimal) (i : Indicator) :
    i.valuesAt closes = calculated (i.values closes) := by
  cases i with
  | price => rfl
  | sma period => exact smaValuesAt_eq period closes
  | ema period => exact emaValuesAt_eq period closes
  | rsi period => exact rsiValuesAt_eq period closes

namespace IndicatorCache

/-- Compute the indicator unless its values are known. -/
def ensureAt (closes : List Decimal) (cache : IndicatorCache) (i : Indicator) :
    Except Stop IndicatorCache :=
  match cache.find? i with
  | some _ => .ok cache
  | none => do
    let values ← i.valuesAt closes
    return ⟨cache.entries ++ [(i, values)]⟩

theorem ensureAt_eq (closes : List Decimal) (cache : IndicatorCache) (i : Indicator) :
    cache.ensureAt closes i = calculated (cache.ensure closes i) := by
  unfold ensureAt ensure
  rw [Indicator.valuesAt_eq]
  rcases cache.find? i with _ | values
  · simp only [calculated_bind, calculated_pure]
  · rfl

theorem foldlM_ensureAt_eq (closes : List Decimal) :
    ∀ (is : List Indicator) (cache : IndicatorCache),
      is.foldlM (ensureAt closes) cache = calculated (cache.ensureAll closes is)
  | [], _ => rfl
  | i :: rest, cache => by
    rw [List.foldlM_cons, ensureAll, calculated_bind, ensureAt_eq]
    exact congrArg _ (funext fun cache => foldlM_ensureAt_eq closes rest cache)

end IndicatorCache
end Backtest
