/-
Runs by indices. `Run.byIndex` does what a run does with checked indices and checked counts: the
bars and closes are read by index, a crossing counts down to the bar before, and the curve to the
last bar. It comes to the same as the run, failures included, so none of these checks ever fails;
and as no run divides by zero, a run stops only for a problem or because an amount is too large.
-/
import Backtest.Proofs.Indexed.Indicator
import Backtest.Proofs.Run.Division

namespace Backtest

/-! ## Rules -/

/-- Whether the left side of the condition crosses the right one at an index, upwards or downwards.
The bar before is read as well; there is none at the first index. -/
def Condition.crossesAt (c : Condition) (values : Lookup) (upwards : Bool) (index : Nat) :
    Except Stop Bool :=
  if index = 0 then .ok false
  else do
    let before ← countDown index 1
    match c.sides? values index, c.sides? values before with
    | some (left, right), some (left', right') =>
      return if upwards then left' ≤ right' && right < left else right' ≤ left' && left < right
    | _, _ => return false

/-- Whether the condition holds at an index. -/
def Condition.evaluateAt (c : Condition) (values : Lookup) (index : Nat) : Except Stop Bool :=
  match c.operator with
  | .greaterThan => .ok ((c.sides? values index).any fun (left, right) => right < left)
  | .lessThan => .ok ((c.sides? values index).any fun (left, right) => left < right)
  | .crossesAbove => c.crossesAt values true index
  | .crossesBelow => c.crossesAt values false index

theorem Condition.crossesAt_succ (c : Condition) (values : Lookup) (upwards : Bool) (before : Nat) :
    c.crossesAt values upwards (before + 1) =
      .ok (match c.sides? values (before + 1), c.sides? values before with
        | some (left, right), some (left', right') =>
          if upwards then left' ≤ right' && right < left else right' ≤ left' && left < right
        | _, _ => false) := by
  unfold crossesAt
  rw [if_neg (Nat.succ_ne_zero before), countDown_of_le (Nat.le_add_left 1 before),
    Nat.add_sub_cancel, ok_bind]
  split <;> rfl

theorem Condition.evaluateAt_eq (c : Condition) (values : Lookup) (index : Nat) :
    c.evaluateAt values index = .ok (c.evaluate values index) := by
  unfold evaluateAt evaluate
  cases c.operator with
  | greaterThan | lessThan => rcases c.sides? values index with _ | ⟨left, right⟩ <;> rfl
  | crossesAbove | crossesBelow =>
    rcases index with _ | before
    · rcases c.sides? values 0 with _ | ⟨left, right⟩ <;> rfl
    · dsimp only
      rw [crossesAt_succ]
      rcases c.sides? values (before + 1) with _ | ⟨left, right⟩
      · rfl
      · rcases c.sides? values before with _ | ⟨left', right'⟩ <;> rfl

namespace Predicate

mutual

def evaluateAt (values : Lookup) (index : Nat) : Predicate → Except Stop Bool
  | compare c => c.evaluateAt values index
  | all parts => evaluateAllAt values index parts
  | any parts => evaluateAnyAt values index parts

def evaluateAllAt (values : Lookup) (index : Nat) : List Predicate → Except Stop Bool
  | [] => .ok true
  | p :: rest => do
    if ← evaluateAt values index p then evaluateAllAt values index rest else return false

def evaluateAnyAt (values : Lookup) (index : Nat) : List Predicate → Except Stop Bool
  | [] => .ok false
  | p :: rest => do
    if ← evaluateAt values index p then return true else evaluateAnyAt values index rest

end

mutual

theorem evaluateAt_eq (values : Lookup) (index : Nat) : ∀ p : Predicate,
    p.evaluateAt values index = .ok (p.evaluate values index)
  | compare c => by
    unfold evaluateAt evaluate
    exact c.evaluateAt_eq values index
  | all parts => by
    unfold evaluateAt evaluate
    exact evaluateAllAt_eq values index parts
  | any parts => by
    unfold evaluateAt evaluate
    exact evaluateAnyAt_eq values index parts

theorem evaluateAllAt_eq (values : Lookup) (index : Nat) : ∀ parts : List Predicate,
    evaluateAllAt values index parts = .ok (evaluateAll values index parts)
  | [] => rfl
  | p :: rest => by
    unfold evaluateAllAt evaluateAll
    rw [evaluateAt_eq values index p, ok_bind, evaluateAllAt_eq values index rest]
    cases p.evaluate values index <;> rfl

theorem evaluateAnyAt_eq (values : Lookup) (index : Nat) : ∀ parts : List Predicate,
    evaluateAnyAt values index parts = .ok (evaluateAny values index parts)
  | [] => rfl
  | p :: rest => by
    unfold evaluateAnyAt evaluateAny
    rw [evaluateAt_eq values index p, ok_bind, evaluateAnyAt_eq values index rest]
    cases p.evaluate values index <;> rfl

end

end Predicate

/-! ## Trades -/

namespace TradeRecord

/-- The record after the bar at an index. -/
def advanceAt (s : PreparedStrategy) (series : Series) (r : TradeRecord) (index : Nat) :
    Except Stop TradeRecord := do
  let bar ← entryAt series.bars index
  match r.position with
  | .flat =>
    let enters ← s.entry.evaluateAt s.cache.value? index
    return if enters then r.fill (.enter ⟨index, bar.close⟩) else r
  | .long =>
    let leaves ← s.exit.evaluateAt s.cache.value? index
    return if leaves then r.fill (.exit ⟨index, bar.close⟩) else r

/-- The trades of a run. The close at the first index fixes the quantity. -/
def simulateAt (s : PreparedStrategy) (series : Series) (cash : Decimal) :
    Except Stop TradeRecord :=
  match series.firstIndex? with
  | none => .ok (empty .zero)
  | some index => do
    let first ← entryAt series.bars index
    let quantity ← calculated (affordableUnits cash first.close)
    (List.range series.length).foldlM (advanceAt s series) (empty quantity)

variable {s : PreparedStrategy} {series : Series}

theorem advanceAt_eq {r : TradeRecord} {index : Nat} {bar : Bar}
    (h : series.bars[index]? = some bar) :
    advanceAt s series r index = .ok (r.advance s.signals ⟨index, bar.close⟩) := by
  unfold advanceAt advance
  rw [entryAt_of_getElem? h, Predicate.evaluateAt_eq, Predicate.evaluateAt_eq]
  cases r.position <;> rfl

/-- Going over the indices from one on is going over the closes from there. -/
theorem foldlM_advanceAt_eq : ∀ (rest : List Bar) (index : Nat) (r : TradeRecord),
    series.bars.drop index = rest →
    (List.range' index rest.length).foldlM (advanceAt s series) r =
      .ok (r.advanceAll s.signals index (rest.map (·.close)))
  | [], _, _, _ => rfl
  | bar :: rest, index, r, h => by
    obtain ⟨here, next⟩ := getElem?_of_drop_eq_cons h
    rw [List.length_cons, List.range'_succ, List.foldlM_cons, advanceAt_eq here, ok_bind,
      foldlM_advanceAt_eq rest _ _ next]
    rfl

theorem simulateAt_eq (s : PreparedStrategy) (series : Series) (cash : Decimal) :
    simulateAt s series cash = calculated (simulate s.signals cash series.closes) := by
  have loop := fun r => foldlM_advanceAt_eq (s := s) series.bars 0 r List.drop_zero
  unfold simulateAt simulate Series.firstIndex? Series.closes Series.length
  rw [List.range_eq_range']
  rcases hb : series.bars with _ | ⟨first, rest⟩
  · rfl
  · rw [hb] at loop
    simp only [List.isEmpty_cons, Bool.false_eq_true, if_false,
      entryAt_of_getElem? (List.getElem?_cons_zero ..), ok_bind, calculated_bind, calculated_pure,
      loop, List.map_cons]
    rfl

end TradeRecord

/-! ## Runs -/

/-- The equity curve over the closes up to the last index; without one it has no values. -/
def equityCurveAt (policy : OpenPositionPolicy) (r : TradeRecord) (series : Series) :
    Except Stop (List Decimal) :=
  match countDown series.length 1 with
  | .ok lastIndex => calculated (equityFrom lastIndex 0 .one none (r.shown policy) series.closes)
  | .error _ => .ok []

theorem equityCurveAt_eq (policy : OpenPositionPolicy) (r : TradeRecord) (series : Series) :
    equityCurveAt policy r series = calculated (equityCurve policy r series.closes) := by
  unfold equityCurveAt equityCurve
  rw [Series.length_closes]
  rcases Nat.eq_zero_or_pos series.length with none | some_bar
  · have closes : series.closes = [] := by
      rw [← List.length_eq_zero_iff, Series.length_closes, none]
    rw [none, closes]
    rfl
  · rw [countDown_of_le some_bar]

namespace Run

/-- Run a strategy over a series, with every index and every count checked. -/
def byIndex (d : Definition) (series : Series) (cash : Decimal) (policy : OpenPositionPolicy) :
    Except Stop Run :=
  if ¬ cash.IsPositive then .error (.failure (.problem (.invalidCash cash)))
  else do
    let rules ← orStop (orProblem .rule d.checkedRules)
    let cache ← (Rule.indicators rules).foldlM (IndicatorCache.ensureAt series.closes) .empty
    if series.isEmpty then return ⟨.empty d.name series.symbol, .empty .zero, []⟩
    else
      let s : PreparedStrategy :=
        ⟨d.name, rules, Rule.anyOf .buy rules, Rule.anyOf .sell rules, cache⟩
      let record ← TradeRecord.simulateAt s series cash
      let curve ← equityCurveAt policy record series
      let report ← calculated (Report.ofRun d.name series.symbol curve record cash)
      return ⟨report, record, curve⟩

/-- A run by indices is the run: no index is past the end and no count falls below zero. -/
theorem byIndex_eq (d : Definition) (series : Series) (cash : Decimal)
    (policy : OpenPositionPolicy) :
    byIndex d series cash policy = orStop (ofDefinition d series cash policy) := by
  unfold byIndex ofDefinition Definition.prepare PreparedStrategy.ofRules
  split
  · rfl
  · simp only [orStop_bind, bind_assoc]
    refine congrArg _ (funext fun rules => ?_)
    rw [IndicatorCache.foldlM_ensureAt_eq]
    change _ = calculated (_ >>= _) >>= _
    rw [calculated_bind, bind_assoc]
    refine congrArg _ (funext fun cache => ?_)
    rw [calculated_pure, pure_bind]
    split
    · rfl
    · change _ = calculated (ofStrategy _ series cash policy)
      unfold ofStrategy
      simp only [calculated_bind, calculated_pure, TradeRecord.simulateAt_eq, equityCurveAt_eq]

end Run

/-- An exact result was too large for an amount. -/
def Fault.IsOverflow : Fault → Prop
  | addition | subtraction | multiplication | division => True
  | zeroDivisor => False

/-- A run with all indices and counts checked has a result or a problem, the same as without the
checks, unless an amount overflows: no index is past the end of its list, no count falls below zero,
and nothing is divided by zero. -/
theorem Run.byIndex_result_or_overflow (d : Definition) (series : Series) (cash : Decimal)
    (policy : OpenPositionPolicy) :
    (∃ run, byIndex d series cash policy = .ok run ∧
      ofDefinition d series cash policy = .ok run) ∨
    (∃ problem, byIndex d series cash policy = .error (.failure (.problem problem)) ∧
      ofDefinition d series cash policy = .error (.problem problem)) ∨
    ∃ fault, fault.IsOverflow ∧
      byIndex d series cash policy = .error (.failure (.fault fault)) ∧
      ofDefinition d series cash policy = .error (.fault fault) := by
  have safe := ofDefinition_ne_zeroDivisor d series cash policy
  rw [byIndex_eq]
  generalize ofDefinition d series cash policy = outcome at safe ⊢
  rcases outcome with (fault | problem) | run
  · refine .inr (.inr ⟨fault, ?_, rfl, rfl⟩)
    cases fault with
    | zeroDivisor => exact safe rfl
    | addition | subtraction | multiplication | division => trivial
  · exact .inr (.inl ⟨problem, rfl, rfl⟩)
  · exact .inl ⟨run, rfl, rfl⟩

end Backtest
