/-
What a run depends on in its rules: for each action, the set of the sets of conditions that its
rules list (`Definition.conditionSets`). The order of rules and conditions, repetitions, rules
without a list, and the spelling of names and amounts make no difference. Such definitions read the
same indicators and call for the same actions, so they are ready for the same series and their runs
are the same.
-/
import Backtest.Proofs.Strategy.Signals
import Mathlib.Data.Set.Basic

namespace Backtest

/-! ## The meaning of conditions -/

/-- What a condition says: its indicator, its operator, and the value or the indicator on the other
side. Amounts with the same value mean the same, whatever their scale. -/
abbrev ConditionMeaning := Indicator × Operator × (Rat ⊕ Indicator)

def Operand.meaning : Operand → Rat ⊕ Indicator
  | constant value => .inl value.toRat
  | indicator i => .inr i

def Condition.meaning (c : Condition) : ConditionMeaning :=
  (c.left, c.operator, c.right.meaning)

/-- The conditions of a rule as a set. -/
def Rule.meaning (r : Rule) : Set ConditionMeaning :=
  {m | ∃ c ∈ r.conditions, c.meaning = m}

/-- A condition that says the same as another one of the rule adds nothing. -/
theorem Rule.meaning_cons_of_mem (index index' : Nat) (action action' : Action) {c : Condition}
    {cs : List Condition} (h : ∃ c' ∈ cs, c'.meaning = c.meaning) :
    meaning ⟨index, action, c :: cs⟩ = meaning ⟨index', action', cs⟩ := by
  ext m
  constructor
  · rintro ⟨d, hd, rfl⟩
    rcases List.mem_cons.1 hd with rfl | hd
    · exact h
    · exact ⟨d, hd, rfl⟩
  · rintro ⟨d, hd, rfl⟩
    exact ⟨d, List.mem_cons_of_mem _ hd, rfl⟩

/-- The sets of conditions that are listed for an action. -/
def Definition.conditionSets (d : Definition) (action : Action) : Set (Set ConditionMeaning) :=
  {s | ∃ r ∈ d.rules, Action.ofText r.action = .ok action ∧ ∃ cs, r.conditions = some cs ∧
    s = {m | ∃ c ∈ cs, ∃ condition, Condition.ofDefinition c = .ok condition ∧
      condition.meaning = m}}

/-- The sets of a definition are those of its checked rules. -/
theorem Definition.mem_conditionSets_iff {d : Definition} {rules : List Rule}
    (h : d.checkedRules = .ok rules) {action : Action} {s : Set ConditionMeaning} :
    s ∈ d.conditionSets action ↔ ∃ r ∈ rules, r.action = action ∧ r.meaning = s := by
  have listed : ∀ {cs : List ConditionDefinition} {r : Rule},
      cs.map Condition.ofDefinition = r.conditions.map .ok →
      {m | ∃ c ∈ cs, ∃ condition, Condition.ofDefinition c = .ok condition ∧
        condition.meaning = m} = r.meaning := by
    intro cs r conditions
    ext m
    constructor
    · rintro ⟨c, hc, condition, ho, rfl⟩
      obtain ⟨condition', hm, ho'⟩ := result_of_mem conditions hc
      rw [ho] at ho'
      cases ho'
      exact ⟨condition, hm, rfl⟩
    · rintro ⟨condition, hm, rfl⟩
      obtain ⟨c, hc, ho⟩ := step_of_mem conditions hm
      exact ⟨c, hc, condition, ho, rfl⟩
  constructor
  · rintro ⟨r, hr, ha, cs, hcs, rfl⟩
    obtain ⟨rule, hm, ha', conditions⟩ := Rule.exists_of_conditions h hr hcs
    rw [ha] at ha'
    exact ⟨rule, hm, (Except.ok.inj ha').symm, (listed conditions).symm⟩
  · rintro ⟨rule, hm, rfl, rfl⟩
    obtain ⟨k, r, hk, ho⟩ := (Rule.mem_listOfDefinitions h rule).1 hm
    obtain ⟨-, ha, cs, hcs, conditions⟩ := Rule.ofDefinition_eq_some_iff.1 ho
    exact ⟨r, List.mem_of_getElem? hk, ha, cs, hcs, (listed conditions).symm⟩

namespace Condition

variable {c c' : Condition}

theorem indicators_of_meaning (h : c.meaning = c'.meaning) : c.indicators = c'.indicators := by
  obtain ⟨left, operator, right⟩ := c
  obtain ⟨left', operator', right'⟩ := c'
  simp only [meaning, Prod.mk.injEq] at h
  obtain ⟨rfl, rfl, same⟩ := h
  cases right <;> cases right' <;> simp_all [Operand.meaning, indicators]

/-- What has the same meaning reads the same values, up to their scale. -/
theorem Reads.of_meaning {values : Lookup} {index : Nat} {left right : Decimal}
    (h : c.meaning = c'.meaning) (hr : c.Reads values index left right) :
    ∃ right', c'.Reads values index left right' ∧ right'.toRat = right.toRat := by
  obtain ⟨i, operator, operand⟩ := c
  obtain ⟨i', operator', operand'⟩ := c'
  simp only [meaning, Prod.mk.injEq] at h
  obtain ⟨rfl, rfl, same⟩ := h
  obtain ⟨hl, hr⟩ := hr
  cases operand with
  | constant value =>
    cases operand' with
    | constant value' =>
      cases hr
      exact ⟨value', ⟨hl, rfl⟩, (Sum.inl.inj same).symm⟩
    | indicator _ => cases same
  | indicator j =>
    cases operand' with
    | constant _ => cases same
    | indicator j' =>
      cases same
      exact ⟨right, ⟨hl, hr⟩, rfl⟩

theorem Holds.of_meaning {values : Lookup} {index : Nat} (h : c.meaning = c'.meaning)
    (hc : c.Holds values index) : c'.Holds values index := by
  have operator : c'.operator = c.operator := (congrArg (fun m => m.2.1) h).symm
  -- amounts are compared by value, so their scale does not show
  have lt : ∀ {a b a' b' : Decimal}, a'.toRat = a.toRat → b'.toRat = b.toRat → a < b → a' < b' := by
    intro a b a' b' ha hb hlt
    show a'.toRat < b'.toRat
    rw [ha, hb]
    exact hlt
  have le : ∀ {a b a' b' : Decimal}, a'.toRat = a.toRat → b'.toRat = b.toRat → a ≤ b → a' ≤ b' := by
    intro a b a' b' ha hb hle
    show a'.toRat ≤ b'.toRat
    rw [ha, hb]
    exact hle
  unfold Holds at hc ⊢
  cases ho : c.operator <;> rw [ho] at hc operator <;> rw [operator]
  · obtain ⟨left, right, hr, hlt⟩ := hc
    obtain ⟨right', hr', value⟩ := hr.of_meaning h
    exact ⟨left, right', hr', lt value rfl hlt⟩
  · obtain ⟨left, right, hr, hlt⟩ := hc
    obtain ⟨right', hr', value⟩ := hr.of_meaning h
    exact ⟨left, right', hr', lt rfl value hlt⟩
  · obtain ⟨before, left₀, right₀, left, right, rfl, hb, hr, hle, hlt⟩ := hc
    obtain ⟨right₀', hb', value₀⟩ := hb.of_meaning h
    obtain ⟨right', hr', value⟩ := hr.of_meaning h
    exact ⟨before, left₀, right₀', left, right', rfl, hb', hr', le rfl value₀ hle, lt value rfl hlt⟩
  · obtain ⟨before, left₀, right₀, left, right, rfl, hb, hr, hle, hlt⟩ := hc
    obtain ⟨right₀', hb', value₀⟩ := hb.of_meaning h
    obtain ⟨right', hr', value⟩ := hr.of_meaning h
    exact ⟨before, left₀, right₀', left, right', rfl, hb', hr', le value₀ rfl hle, lt rfl value hlt⟩

end Condition

theorem Rule.Due.of_meaning {values : Lookup} {index : Nat} {r r' : Rule}
    (h : r.meaning = r'.meaning) (due : r.Due values index) : r'.Due values index := by
  intro c' hc'
  have shared : c'.meaning ∈ r.meaning := h ▸ ⟨c', hc', rfl⟩
  obtain ⟨c, hc, same⟩ := shared
  exact (due c hc).of_meaning same

/-- Strategies call for the same if each rule of one has a rule of the other that says the same. -/
theorem PreparedStrategy.signals_eq {name name' : String} {rules rules' : List Rule}
    {closes : List Decimal} {cache cache' : IndicatorCache}
    (hc : IndicatorCache.empty.ensureAll closes (Rule.indicators rules) = .ok cache)
    (hc' : IndicatorCache.empty.ensureAll closes (Rule.indicators rules') = .ok cache')
    (same : ∀ r ∈ rules, ∃ r' ∈ rules', r'.action = r.action ∧ r'.meaning = r.meaning)
    (same' : ∀ r' ∈ rules', ∃ r ∈ rules, r.action = r'.action ∧ r.meaning = r'.meaning) :
    signals ⟨name', rules', Rule.anyOf .buy rules', Rule.anyOf .sell rules', cache'⟩ =
      signals ⟨name, rules, Rule.anyOf .buy rules, Rule.anyOf .sell rules, cache⟩ := by
  have called : ∀ action index,
      calls ⟨name', rules', Rule.anyOf .buy rules', Rule.anyOf .sell rules', cache'⟩ action index =
      calls ⟨name, rules, Rule.anyOf .buy rules, Rule.anyOf .sell rules, cache⟩ action index := by
    intro action index
    rw [Bool.eq_iff_iff, calls_iff_due hc', calls_iff_due hc]
    constructor
    · rintro ⟨r', hr', ha, due⟩
      obtain ⟨r, hr, action', meaning⟩ := same' r' hr'
      exact ⟨r, hr, action'.trans ha, due.of_meaning meaning.symm⟩
    · rintro ⟨r, hr, ha, due⟩
      obtain ⟨r', hr', action', meaning⟩ := same r hr
      exact ⟨r', hr', action'.trans ha, due.of_meaning meaning.symm⟩
  show Signals.mk _ _ = Signals.mk _ _
  exact congrArg₂ Signals.mk (funext (called .buy)) (funext (called .sell))

/-! ## Definitions with the same sets -/

section SameSets

variable {d d' : Definition} {rules rules' : List Rule} {closes : List Decimal}

/-- Each rule of one has a rule of the other that says the same. -/
theorem Rule.exists_same (h : d.checkedRules = .ok rules) (h' : d'.checkedRules = .ok rules')
    (same : ∀ action, d.conditionSets action = d'.conditionSets action) {r : Rule}
    (hr : r ∈ rules) :
    ∃ r' ∈ rules', r'.action = r.action ∧ r'.meaning = r.meaning := by
  have mem : r.meaning ∈ d'.conditionSets r.action :=
    same r.action ▸ (Definition.mem_conditionSets_iff h).2 ⟨r, hr, rfl, rfl⟩
  exact (Definition.mem_conditionSets_iff h').1 mem

theorem Rule.indicators_subset (h : d.checkedRules = .ok rules)
    (h' : d'.checkedRules = .ok rules')
    (same : ∀ action, d.conditionSets action = d'.conditionSets action) :
    ∀ i ∈ Rule.indicators rules, i ∈ Rule.indicators rules' := by
  intro i hi
  obtain ⟨r, hr, hi⟩ := List.mem_flatMap.1 hi
  obtain ⟨c, hc, hi⟩ := List.mem_flatMap.1 hi
  obtain ⟨r', hr', -, meaning⟩ := Rule.exists_same h h' same hr
  have shared : c.meaning ∈ r'.meaning := meaning ▸ ⟨c, hc, rfl⟩
  obtain ⟨c', hc', same'⟩ := shared
  exact Rule.mem_indicators hr' hc' i (Condition.indicators_of_meaning same' ▸ hi)

/-- If one is ready for a series, so is the other, and it calls for the same. -/
theorem Definition.exists_prepare (h : d.checkedRules = .ok rules)
    (h' : d'.checkedRules = .ok rules') (name : d.name = d'.name)
    (same : ∀ action, d.conditionSets action = d'.conditionSets action) {s : PreparedStrategy}
    (hs : d.prepare closes = .ok s) :
    ∃ s', d'.prepare closes = .ok s' ∧ s'.name = s.name ∧ s'.signals = s.signals := by
  obtain ⟨_, cache, hr, hc, rfl⟩ := Definition.prepare_eq_ok_iff.1 hs
  rw [h] at hr
  cases hr
  have known := (IndicatorCache.over_of_ensureAll hc).known
  have same' : ∀ action, d'.conditionSets action = d.conditionSets action :=
    fun action => (same action).symm
  obtain ⟨cache', hc'⟩ : ∃ cache', IndicatorCache.empty.ensureAll closes (Rule.indicators rules') =
      .ok cache' := by
    refine IndicatorCache.exists_ensureAll .empty fun i hi => ?_
    obtain ⟨values, hv, -⟩ := known i (Rule.indicators_subset h' h same' i hi)
    exact ⟨values, hv⟩
  refine ⟨_, Definition.prepare_eq_ok_iff.2 ⟨rules', cache', h', hc', rfl⟩, name.symm, ?_⟩
  exact PreparedStrategy.signals_eq hc hc' (fun _ => Rule.exists_same h h' same)
    (fun _ => Rule.exists_same h' h same')

/-- With rules that pass the checks a strategy is prepared from these. -/
theorem Definition.prepare_eq_ofRules (h : d.checkedRules = .ok rules) (closes : List Decimal) :
    d.prepare closes = orFault (PreparedStrategy.ofRules d.name rules closes) := by
  unfold prepare
  rw [h]
  rfl

/-- So only an arithmetic fault keeps it from being ready. -/
theorem Definition.prepare_of_checkedRules (h : d.checkedRules = .ok rules)
    (closes : List Decimal) :
    (∃ s, d.prepare closes = .ok s) ∨ ∃ fault, d.prepare closes = .error (.fault fault) := by
  rw [Definition.prepare_eq_ofRules h]
  rcases PreparedStrategy.ofRules d.name rules closes with fault | s
  · exact .inr ⟨fault, rfl⟩
  · exact .inl ⟨s, rfl⟩

end SameSets

namespace Run

theorem ofStrategy_congr {s s' : PreparedStrategy} (name : s'.name = s.name)
    (signals : s'.signals = s.signals) (series : Series) (cash : Decimal)
    (policy : OpenPositionPolicy) :
    ofStrategy s' series cash policy = ofStrategy s series cash policy := by
  unfold ofStrategy
  rw [name, signals]

/-- The run of a definition that is ready for the series. -/
theorem ofDefinition_of_prepare {d : Definition} {series : Series} {cash : Decimal}
    {s : PreparedStrategy} (hc : cash.IsPositive) (h : d.prepare series.closes = .ok s)
    (policy : OpenPositionPolicy) :
    ofDefinition d series cash policy =
      if series.isEmpty then .ok ⟨.empty d.name series.symbol, .empty .zero, []⟩
      else orFault (ofStrategy s series cash policy) := by
  unfold ofDefinition
  rw [if_neg (not_not.2 hc), h]
  rfl

theorem ofDefinition_of_failure {d : Definition} {series : Series} {cash : Decimal}
    {failure : Failure} (hc : cash.IsPositive) (h : d.prepare series.closes = .error failure)
    (policy : OpenPositionPolicy) : ofDefinition d series cash policy = .error failure := by
  unfold ofDefinition
  rw [if_neg (not_not.2 hc), h]
  rfl

/-- Definitions of one name whose rules pass the checks and list the same sets of conditions for
each action have the same run, with the same report, record and curve, or the same problem, over
every series; or neither of them has one, because each run meets an arithmetic fault. -/
theorem ofDefinition_eq_of_conditionSets {d d' : Definition} {rules rules' : List Rule}
    (h : d.checkedRules = .ok rules) (h' : d'.checkedRules = .ok rules') (name : d.name = d'.name)
    (same : ∀ action, d.conditionSets action = d'.conditionSets action) (series : Series)
    (cash : Decimal) (policy : OpenPositionPolicy) :
    ofDefinition d series cash policy = ofDefinition d' series cash policy ∨
      ∃ fault fault', ofDefinition d series cash policy = .error (.fault fault) ∧
        ofDefinition d' series cash policy = .error (.fault fault') := by
  by_cases hc : cash.IsPositive
  · rcases Definition.prepare_of_checkedRules h series.closes with ⟨s, hs⟩ | ⟨fault, hf⟩
    · left
      obtain ⟨s', hs', name', signals⟩ := Definition.exists_prepare h h' name same hs
      rw [ofDefinition_of_prepare hc hs, ofDefinition_of_prepare hc hs', name,
        ofStrategy_congr name' signals]
    · right
      rcases Definition.prepare_of_checkedRules h' series.closes with ⟨s', hs'⟩ | ⟨fault', hf'⟩
      · -- the first would be ready as well
        obtain ⟨s, hs, -⟩ :=
          Definition.exists_prepare h' h name.symm (fun action => (same action).symm) hs'
        rw [hf] at hs
        cases hs
      · exact ⟨fault, fault', ofDefinition_of_failure hc hf policy,
          ofDefinition_of_failure hc hf' policy⟩
  · left
    unfold ofDefinition
    rw [if_pos hc, if_pos hc]

/-- The same rules in another order, with a condition written twice, a rule without a list, other
letter case, and an amount with another scale: both definitions come to the same trade. -/
theorem ofDefinition_eq_of_respelled_rules :
    let price : IndicatorDefinition := ⟨"PRICE", []⟩
    let period : List (String × Json) := [("period", .number (.whole 2))]
    let d : Definition := ⟨"a", "S", "", "", [
      ⟨"BUY", some [⟨price, "GREATER_THAN", "INDICATOR", some (.text "SMA"), period⟩,
        ⟨price, "GREATER_THAN", "VALUE", some (.text "1"), []⟩]⟩,
      ⟨"SELL", some [⟨price, "LESS_THAN", "INDICATOR", some (.text "SMA"), period⟩]⟩]⟩
    let d' : Definition := ⟨"b", "S", "", "", [
      ⟨" sell", some [⟨price, "less_than", "indicator", some (.text " sma "), period⟩]⟩,
      ⟨"buy", none⟩,
      ⟨"Buy", some [⟨⟨"price", []⟩, "Greater_Than", "value", some (.text "1.0"), []⟩,
        ⟨price, "GREATER_THAN", "INDICATOR", some (.text "SMA"), period⟩,
        ⟨price, "GREATER_THAN", "VALUE", some (.text "1"), []⟩]⟩]⟩
    let bar (second : Int) (close : Decimal) : Bar :=
      ⟨⟨second, 0⟩, close, close, close, close, .one⟩
    let series : Series := ⟨"S", [bar 0 .one, bar 1 .hundred, bar 2 .one], by decide, by decide⟩
    (∀ action, d.conditionSets action = d'.conditionSets action) ∧
      ∃ run, ofDefinition d series .hundred .exclude = .ok run ∧
        ofDefinition d' series .hundred .exclude = .ok run ∧
        run.record.trades = [⟨⟨1, .hundred⟩, some ⟨2, .one⟩⟩] := by
  intro price period d d' bar series
  let longOne : Decimal := ⟨false, 10, 1, by decide, by decide⟩
  have one_value : (⟨.price, .greaterThan, .constant .one⟩ : Condition).meaning =
      (⟨.price, .greaterThan, .constant longOne⟩ : Condition).meaning := by decide +kernel
  have checked : d.checkedRules.toOption.map id = some [
      ⟨0, .buy,
        [⟨.price, .greaterThan, .indicator (.sma 2)⟩, ⟨.price, .greaterThan, .constant .one⟩]⟩,
      ⟨1, .sell, [⟨.price, .lessThan, .indicator (.sma 2)⟩]⟩] := by decide +kernel
  have checked' : d'.checkedRules.toOption.map id = some [
      ⟨0, .sell, [⟨.price, .lessThan, .indicator (.sma 2)⟩]⟩,
      ⟨2, .buy, [⟨.price, .greaterThan, .constant longOne⟩,
        ⟨.price, .greaterThan, .indicator (.sma 2)⟩, ⟨.price, .greaterThan, .constant .one⟩]⟩] := by
    decide +kernel
  obtain ⟨rules, h, rfl⟩ := exists_of_toOption_map checked
  obtain ⟨rules', h', rfl⟩ := exists_of_toOption_map checked'
  have same : ∀ action, d.conditionSets action = d'.conditionSets action := by
    intro action
    ext s
    rw [Definition.mem_conditionSets_iff h, Definition.mem_conditionSets_iff h']
    cases action
    · have buying := Rule.meaning_cons_of_mem 2 0 .buy .buy
        (⟨_, List.mem_cons_of_mem _ (List.mem_singleton_self _), one_value⟩ :
          ∃ c ∈ [(⟨.price, .greaterThan, .indicator (.sma 2)⟩ : Condition),
            ⟨.price, .greaterThan, .constant .one⟩],
            c.meaning = (⟨.price, .greaterThan, .constant longOne⟩ : Condition).meaning)
      simp [buying]
    · simp [Rule.meaning]
  have outcome : (ofDefinition d series .hundred .exclude).toOption.map (·.record.trades) =
      some [⟨⟨1, .hundred⟩, some ⟨2, .one⟩⟩] := by decide +kernel
  obtain ⟨run, hr, trades⟩ := exists_of_toOption_map outcome
  refine ⟨same, run, hr, ?_, trades⟩
  rcases ofDefinition_eq_of_conditionSets h h' rfl same series .hundred .exclude with
    eq | ⟨_, _, hf, -⟩
  · rw [← eq, hr]
  · rw [hr] at hf
    cases hf

end Run
end Backtest
