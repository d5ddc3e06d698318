/-
What a prepared strategy calls for: at a bar it calls for an action exactly when some rule of its
definition with that action has a list of conditions all of which hold there, on indicators
computed afresh from the closes. The cache plays no part in the answer because every indicator
that a condition reads has been asked for.
-/
import Backtest.Proofs.Indicator.Cache
import Backtest.Proofs.Rule.Checked
import Backtest.Proofs.Rule.Truth
import Backtest.Run

namespace Backtest

/-! ## Preparing a strategy -/

theorem orFault_eq_ok_iff {α : Type} {x : Except Fault α} {a : α} :
    orFault x = .ok a ↔ x = .ok a := by
  rcases x with e | b <;> simp [orFault]

theorem orProblem_eq_ok_iff {ε α : Type} {problem : ε → Problem} {x : Except ε α} {a : α} :
    orProblem problem x = .ok a ↔ x = .ok a := by
  rcases x with e | b <;> simp [orProblem]

/-- A strategy is prepared from its checked rules and the values of the indicators they read. -/
theorem Definition.prepare_eq_ok_iff {d : Definition} {closes : List Decimal}
    {s : PreparedStrategy} :
    d.prepare closes = .ok s ↔ ∃ rules cache, d.checkedRules = .ok rules ∧
      IndicatorCache.empty.ensureAll closes (Rule.indicators rules) = .ok cache ∧
      s = ⟨d.name, rules, Rule.anyOf .buy rules, Rule.anyOf .sell rules, cache⟩ := by
  unfold prepare PreparedStrategy.ofRules
  simp only [bind_eq_ok_iff, orProblem_eq_ok_iff, orFault_eq_ok_iff, pure_eq_ok_iff]
  constructor
  · rintro ⟨rules, hr, cache, hc, rfl⟩
    exact ⟨rules, cache, hr, hc, rfl⟩
  · rintro ⟨rules, cache, hr, hc, rfl⟩
    exact ⟨rules, hr, cache, hc, rfl⟩

/-! ## Rules that are due -/

/-- Whether the strategy calls for the action at the bar. -/
def PreparedStrategy.calls (s : PreparedStrategy) : Action → Nat → Bool
  | .buy => s.enters
  | .sell => s.leaves

/-- All conditions of a checked rule hold at the bar. -/
def Rule.Due (values : Lookup) (r : Rule) (index : Nat) : Prop :=
  ∀ c ∈ r.conditions, c.Holds values index

/-- A rule as defined has the given action and a list of conditions, all of which hold at the
bar. -/
def RuleDefinition.Due (values : Lookup) (r : RuleDefinition) (action : Action) (index : Nat) :
    Prop :=
  Action.ofText r.action = .ok action ∧ ∃ cs, r.conditions = some cs ∧
    ∀ c ∈ cs, ∃ condition, Condition.ofDefinition c = .ok condition ∧ condition.Holds values index

theorem Rule.evaluate_anyOf_iff {values : Lookup} {action : Action} {rules : List Rule}
    {index : Nat} : (anyOf action rules).evaluate values index = true ↔
      ∃ r ∈ rules, r.action = action ∧ r.Due values index := by
  unfold anyOf predicate Due
  simp [Condition.evaluate_iff_holds]

theorem Rule.mem_indicators {rules : List Rule} {r : Rule} (hr : r ∈ rules) {c : Condition}
    (hc : c ∈ r.conditions) : ∀ i ∈ c.indicators, i ∈ indicators rules :=
  fun _ hi => List.mem_flatMap.2 ⟨r, hr, List.mem_flatMap.2 ⟨c, hc, hi⟩⟩

/-- A rule is due for one lookup as for another that agrees on the indicators of the rules, at the
bar and before it. -/
theorem Rule.due_congr {values values' : Lookup} {rules : List Rule} {index : Nat}
    (h : ∀ i ∈ indicators rules, ∀ k ≤ index, values i k = values' i k) {r : Rule} (hr : r ∈ rules) :
    r.Due values index ↔ r.Due values' index :=
  forall₂_congr fun _ hc => Condition.holds_congr fun i hi => h i (mem_indicators hr hc i hi)

/-- A checked rule is due when its definition is, and the definitions that can be due are those of
the checked rules. -/
theorem Definition.exists_due_iff {d : Definition} {rules : List Rule}
    (h : d.checkedRules = .ok rules) (values : Lookup) (action : Action) (index : Nat) :
    (∃ r ∈ rules, r.action = action ∧ r.Due values index) ↔
      ∃ r ∈ d.rules, r.Due values action index := by
  constructor
  · rintro ⟨rule, hm, rfl, due⟩
    obtain ⟨k, r, hk, ho⟩ := (Rule.mem_listOfDefinitions h rule).1 hm
    obtain ⟨-, ha, cs, hcs, conditions⟩ := Rule.ofDefinition_eq_some_iff.1 ho
    refine ⟨r, List.mem_of_getElem? hk, ha, cs, hcs, fun c hc => ?_⟩
    obtain ⟨condition, hm, hc⟩ := result_of_mem conditions hc
    exact ⟨condition, hc, due condition hm⟩
  · rintro ⟨r, hr, ha, cs, hcs, due⟩
    obtain ⟨rule, hm, ha', conditions⟩ := Rule.exists_of_conditions h hr hcs
    rw [ha] at ha'
    refine ⟨rule, hm, (Except.ok.inj ha').symm, fun condition hm => ?_⟩
    obtain ⟨c, hc, ho⟩ := step_of_mem conditions hm
    obtain ⟨condition', ho', holds⟩ := due c hc
    rw [ho] at ho'
    cases ho'
    exact holds

/-! ## Prepared strategies -/

namespace PreparedStrategy

/-- A prepared strategy calls for what its rules are due for, on fresh indicators. -/
theorem calls_iff_due {name : String} {rules : List Rule} {closes : List Decimal}
    {cache : IndicatorCache}
    (h : IndicatorCache.empty.ensureAll closes (Rule.indicators rules) = .ok cache)
    (action : Action) (index : Nat) :
    calls ⟨name, rules, Rule.anyOf .buy rules, Rule.anyOf .sell rules, cache⟩ action index = true ↔
      ∃ r ∈ rules, r.action = action ∧ r.Due (Indicator.fresh closes) index := by
  have due : ∀ action', (Rule.anyOf action' rules).evaluate cache.value? index = true ↔
      ∃ r ∈ rules, r.action = action' ∧ r.Due (Indicator.fresh closes) index := by
    intro action'
    rw [Rule.evaluate_anyOf_iff]
    refine exists_congr fun r => and_congr_right fun hr => and_congr_right fun _ => ?_
    refine Rule.due_congr (fun i hi k _ => ?_) hr
    exact (IndicatorCache.over_of_ensureAll h).value?_eq hi k
  cases action
  · exact due .buy
  · exact due .sell

/-- So it calls for what the rules of the definition are due for. -/
theorem calls_iff_exists_due {d : Definition} {closes : List Decimal} {s : PreparedStrategy}
    (h : d.prepare closes = .ok s) (action : Action) (index : Nat) :
    s.calls action index = true ↔ ∃ r ∈ d.rules, r.Due (Indicator.fresh closes) action index := by
  obtain ⟨rules, cache, hr, hc, rfl⟩ := Definition.prepare_eq_ok_iff.1 h
  exact (calls_iff_due hc action index).trans (Definition.exists_due_iff hr _ action index)

/-- Past the last bar only a rule with an empty list of conditions is due. -/
theorem due_of_length_le {closes : List Decimal} {index : Nat} (hi : closes.length ≤ index)
    {r : RuleDefinition} {action : Action} (due : r.Due (Indicator.fresh closes) action index) :
    Action.ofText r.action = .ok action ∧ r.conditions = some [] := by
  obtain ⟨ha, cs, hcs, due⟩ := due
  rcases cs with _ | ⟨c, cs⟩
  · exact ⟨ha, hcs⟩
  · obtain ⟨condition, -, holds⟩ := due c (List.mem_cons_self ..)
    obtain ⟨left, hl⟩ := holds.left
    rw [Indicator.fresh_of_length_le _ hi] at hl
    cases hl

/-- The meaning of a strategy: it calls for an action at a bar when some rule of the definition is
due for it, on indicators computed afresh. So without a rule for the action it never does, a rule
with an empty list of conditions is due everywhere, past the last bar no other rule is, and rules
without a list make no difference. -/
theorem calls_iff_definition_due {d : Definition} {closes : List Decimal} {s : PreparedStrategy}
    (h : d.prepare closes = .ok s) (action : Action) :
    (∀ index, s.calls action index = true ↔
      ∃ r ∈ d.rules, r.Due (Indicator.fresh closes) action index) ∧
    ((∀ r ∈ d.rules, Action.ofText r.action ≠ .ok action) →
      ∀ index, s.calls action index = false) ∧
    ((∃ r ∈ d.rules, Action.ofText r.action = .ok action ∧ r.conditions = some []) →
      ∀ index, s.calls action index = true) ∧
    (∀ index, closes.length ≤ index → s.calls action index = true →
      ∃ r ∈ d.rules, Action.ofText r.action = .ok action ∧ r.conditions = some []) ∧
    ∀ (d' : Definition) (s' : PreparedStrategy), d'.prepare closes = .ok s' →
      (∀ r : RuleDefinition, r.conditions ≠ none → (r ∈ d'.rules ↔ r ∈ d.rules)) →
      s'.calls action = s.calls action := by
  have main := calls_iff_exists_due h action
  refine ⟨main, ?_, ?_, ?_, ?_⟩
  · intro none index
    rw [Bool.eq_false_iff, ne_eq, main]
    rintro ⟨r, hm, ha, -⟩
    exact none r hm ha
  · rintro ⟨r, hm, ha, hcs⟩ index
    exact (main index).2 ⟨r, hm, ha, [], hcs, fun c hc => absurd hc List.not_mem_nil⟩
  · intro index hi hcall
    obtain ⟨r, hm, due⟩ := (main index).1 hcall
    exact ⟨r, hm, due_of_length_le hi due⟩
  · intro d' s' h' same
    funext index
    rw [Bool.eq_iff_iff, calls_iff_exists_due h', main]
    -- a rule that is due has a list of conditions
    refine exists_congr fun r => and_congr_left fun due => same r ?_
    obtain ⟨-, cs, hcs, -⟩ := due
    rw [hcs]
    exact Option.some_ne_none cs

/-- A strategy that buys when the price crosses its average and always sells: past the end of the
series only the sale is called for. -/
theorem calls_of_price_crossing_average :
    let d : Definition := ⟨"s", "s", "", "", [
      ⟨" buy ", some [⟨⟨"price", []⟩, "crosses_above", "indicator", some (.text "sma"),
        [("period", .number (.whole 2))]⟩]⟩,
      ⟨"Sell", some []⟩, ⟨"BUY", none⟩]⟩
    let closes : List Decimal := [.hundred, .one, .hundred]
    ∃ s, d.prepare closes = .ok s ∧
      (s.calls .buy 2 = true ↔ ∃ r ∈ d.rules, r.Due (Indicator.fresh closes) .buy 2) ∧
      s.calls .sell 7 = true := by
  intro d closes
  have ready : (d.prepare closes).toOption.map (·.rules.length) = some 2 := by decide +kernel
  obtain ⟨s, h, -⟩ := exists_of_toOption_map ready
  refine ⟨s, h, (calls_iff_definition_due h .buy).1 2, ?_⟩
  refine (calls_iff_definition_due h .sell).2.2.1 ⟨⟨"Sell", some []⟩, by simp [d], ?_, rfl⟩ 7
  rfl

end PreparedStrategy
end Backtest
