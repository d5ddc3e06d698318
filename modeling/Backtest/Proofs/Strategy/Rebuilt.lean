/-
Checked rules defined over again. `Rule.definition` builds the definition of a checked rule from
what is shown of it: the names of its action, indicators and operators, its periods as whole numbers
and its amounts as texts. Checking that definition gives the rule back (`Rule.reread`), where only
the sign of a zero is lost. So a definition whose checked rules are put in place of its own passes
the checks again and calls for the same.
-/
import Backtest.Proofs.Decimal.Text
import Backtest.Proofs.Rule.Grammar
import Backtest.Proofs.Run.RuleSets

namespace Backtest

/-! ## Definitions of checked rules -/

def Indicator.definition : Indicator → IndicatorDefinition
  | price => .ofKind "PRICE"
  | sma period => .withPeriod "SMA" period
  | ema period => .withPeriod "EMA" period
  | rsi period => .withPeriod "RSI" period

def Condition.definition (c : Condition) : ConditionDefinition :=
  match c.right with
  | .constant d => .againstValue c.left.definition c.operator.text d.text
  | .indicator i => .againstIndicator c.left.definition c.operator.text i.definition

def Rule.definition (r : Rule) : RuleDefinition :=
  .ofConditions r.action.text (r.conditions.map Condition.definition)

/-- The definition with these rules, defined over again, in place of its own. -/
def Definition.rebuilt (d : Definition) (rules : List Rule) : Definition :=
  { d with rules := rules.map Rule.definition }

/-! ## Conditions -/

namespace Indicator

variable {i : Indicator}

theorem denoted_withPeriod {kind : String} {family : ℕ → Indicator} {p : ℕ}
    (known : (Text.name kind, family) ∈ periodic) (pos : 1 ≤ p) (lt : p < 2 ^ 32) :
    Denoted (IndicatorDefinition.withPeriod kind p).kind
      (IndicatorDefinition.withPeriod kind p).params (family p) :=
  .periodic known rfl ⟨⟨.whole p, rfl, by simp [JsonNumber.value]⟩, pos, lt⟩

/-- The definition of an indicator whose period is in range denotes the indicator. -/
theorem denoted_definition (period : ∀ p, i.period? = some p → 1 ≤ p ∧ p < 2 ^ 32) :
    Denoted i.definition.kind i.definition.params i := by
  cases i with
  | price => exact .price (by decide +kernel)
  | sma p =>
    have name : Text.name "SMA" = "SMA" := by decide +kernel
    obtain ⟨pos, lt⟩ := period p rfl
    exact denoted_withPeriod (by simp [name, periodic]) pos lt
  | ema p =>
    have name : Text.name "EMA" = "EMA" := by decide +kernel
    obtain ⟨pos, lt⟩ := period p rfl
    exact denoted_withPeriod (by simp [name, periodic]) pos lt
  | rsi p =>
    have name : Text.name "RSI" = "RSI" := by decide +kernel
    obtain ⟨pos, lt⟩ := period p rfl
    exact denoted_withPeriod (by simp [name, periodic]) pos lt

end Indicator

theorem Action.name_text (a : Action) : Text.name a.text = a.text := by
  cases a <;> decide +kernel

theorem Operator.name_text (o : Operator) : Text.name o.text = o.text := by
  cases o <;> decide +kernel

def Operand.reread : Operand → Operand
  | constant d => constant d.reread
  | indicator i => indicator i

namespace Condition

/-- What the definition of a checked condition is read as. -/
def reread (c : Condition) : Condition :=
  { c with right := c.right.reread }

/-- The definition of a condition that has passed the checks denotes the condition. -/
theorem denoted_definition {raw : ConditionDefinition} {c : Condition} (h : Denoted raw c) :
    Denoted c.definition c.reread := by
  obtain ⟨left, operator, right⟩ := c
  have periods := h.period_bounds
  cases right with
  | constant d =>
    have type : Text.name "VALUE" = "VALUE" := by decide +kernel
    refine ⟨Indicator.denoted_definition (periods left (by simp [indicators])), operator.name_text,
      .constant type rfl rfl d.ofText?_trim_text, fun cross => ?_⟩
    obtain ⟨i, amount⟩ := h.crossing cross
    cases amount
  | indicator i =>
    have type : Text.name "INDICATOR" = "INDICATOR" := by decide +kernel
    exact ⟨Indicator.denoted_definition (periods left (by simp [indicators])), operator.name_text,
      .indicator type rfl (Indicator.denoted_definition (periods i (by simp [indicators]))),
      fun _ => ⟨i, rfl⟩⟩

theorem ofDefinition_definition {raw : ConditionDefinition} {c : Condition}
    (h : ofDefinition raw = .ok c) : ofDefinition c.definition = .ok c.reread := by
  obtain ⟨taken, -⟩ := outcome_iff_of_described ofDefinition_of_denoted ofDefinition_of_refused
    (denoted_or_refused raw)
  exact ofDefinition_of_denoted (denoted_definition ((taken c).1 h))

@[simp] theorem meaning_reread (c : Condition) : c.reread.meaning = c.meaning := by
  obtain ⟨left, operator, right⟩ := c
  cases right with
  | constant d => simp [reread, meaning, Operand.reread, Operand.meaning, d.toRat_reread]
  | indicator i => rfl

end Condition

/-! ## Rules -/

namespace Rule

/-- What the definition of a checked rule is read as at a position. -/
def reread (r : Rule) (index : ℕ) : Rule :=
  ⟨index, r.action, r.conditions.map Condition.reread⟩

/-- Every condition of the rule has passed the checks. -/
def Checked (r : Rule) : Prop :=
  ∀ c ∈ r.conditions, ∃ raw, Condition.ofDefinition raw = .ok c

theorem checked_of_checkedRules {d : Definition} {rules : List Rule}
    (h : d.checkedRules = .ok rules) : ∀ r ∈ rules, r.Checked := by
  intro r hr c hc
  obtain ⟨k, raw, -, checked⟩ := (mem_listOfDefinitions h r).1 hr
  obtain ⟨-, -, cs, -, conditions⟩ := ofDefinition_eq_some_iff.1 checked
  obtain ⟨raw, -, read⟩ := step_of_mem conditions hc
  exact ⟨raw, read⟩

theorem ofDefinition_definition {r : Rule} (h : r.Checked) (index : ℕ) :
    ofDefinition index r.definition = .ok (some (r.reread index)) := by
  refine ofDefinition_eq_some_iff.2 ⟨rfl, Action.ofText_of_name r.action.name_text, _, rfl, ?_⟩
  show (r.conditions.map Condition.definition).map Condition.ofDefinition =
    (r.conditions.map Condition.reread).map .ok
  rw [List.map_map, List.map_map, List.map_inj_left]
  intro c hc
  obtain ⟨raw, read⟩ := h c hc
  exact Condition.ofDefinition_definition read

/-- The definitions of checked rules are read as the rules, each at its position. -/
theorem listOfDefinitions_definition : ∀ {rules : List Rule} (index : ℕ), (∀ r ∈ rules, r.Checked) →
    listOfDefinitions index (rules.map definition) =
      .ok ((rules.zipIdx index).map fun p => p.1.reread p.2)
  | [], index, h => rfl
  | r :: rules, index, h => by
    have first := ofDefinition_definition (h r List.mem_cons_self) index
    have later := listOfDefinitions_definition (index + 1) fun r hr => h r (List.mem_cons_of_mem _ hr)
    rw [List.map_cons, listOfDefinitions, first, later]
    rfl

@[simp] theorem meaning_reread (r : Rule) (index : ℕ) : (r.reread index).meaning = r.meaning := by
  ext m
  simp [reread, meaning]

theorem indicators_reread (rules : List Rule) (index : ℕ) :
    indicators ((rules.zipIdx index).map fun p => p.1.reread p.2) = indicators rules := by
  have conditions : ∀ cs : List Condition,
      (cs.map Condition.reread).flatMap Condition.indicators = cs.flatMap Condition.indicators := by
    intro cs
    rw [List.flatMap_map]
    exact List.flatMap_congr fun c _ => Condition.indicators_of_meaning c.meaning_reread
  induction rules generalizing index with
  | nil => rfl
  | cons r rules ih =>
    have first := conditions r.conditions
    have later := ih (index + 1)
    unfold indicators at later ⊢
    rw [List.zipIdx_cons, List.map_cons, List.flatMap_cons, List.flatMap_cons, later]
    exact congrArg (· ++ _) first

end Rule

/-! ## Definitions -/

/-- The same indicator, or amounts that have the same value and show the same digits after the
point. -/
def Operand.Same : Operand → Operand → Prop
  | constant d, constant d' => d'.toRat = d.toRat ∧ d'.scale = d.scale
  | indicator i, indicator i' => i' = i
  | _, _ => False

structure Condition.Same (c c' : Condition) : Prop where
  left : c'.left = c.left
  operator : c'.operator = c.operator
  right : c.right.Same c'.right

/-- The same action and the same conditions in the same order. -/
structure Rule.Same (r r' : Rule) : Prop where
  action : r'.action = r.action
  conditions : List.Forall₂ Condition.Same r.conditions r'.conditions

theorem Condition.same_reread (c : Condition) : c.Same c.reread := by
  obtain ⟨left, operator, right⟩ := c
  cases right with
  | constant d => exact ⟨rfl, rfl, d.toRat_reread, rfl⟩
  | indicator i => exact ⟨rfl, rfl, rfl⟩

theorem Rule.same_reread (r : Rule) (index : ℕ) : r.Same (r.reread index) := by
  refine ⟨rfl, ?_⟩
  show List.Forall₂ Condition.Same r.conditions (r.conditions.map Condition.reread)
  rw [List.forall₂_map_right_iff, List.forall₂_same]
  exact fun c _ => c.same_reread

theorem Rule.forall₂_same_reread : ∀ (rules : List Rule) (index : ℕ),
    List.Forall₂ Rule.Same rules ((rules.zipIdx index).map fun p => p.1.reread p.2)
  | [], _ => .nil
  | r :: rules, index => .cons (r.same_reread index) (Rule.forall₂_same_reread rules (index + 1))

namespace Definition

variable {d : Definition} {rules : List Rule}

theorem orFault_map {α β : Type} (x : Except Fault α) (f : α → β) :
    (orFault x).map f = orFault (x.map f) := by
  rcases x with fault | a <;> rfl

/-- The rules that are read again call for the same, where they can be followed. -/
theorem signals_reread (name : String) (rules : List Rule) (closes : List Decimal) :
    (PreparedStrategy.ofRules name (rules.zipIdx.map fun p => p.1.reread p.2) closes).map
        PreparedStrategy.signals =
      (PreparedStrategy.ofRules name rules closes).map PreparedStrategy.signals := by
  unfold PreparedStrategy.ofRules
  have indicators := Rule.indicators_reread rules 0
  rw [indicators]
  cases hc : IndicatorCache.empty.ensureAll closes (Rule.indicators rules) with
  | error fault => rfl
  | ok cache =>
    refine congrArg Except.ok (PreparedStrategy.signals_eq hc (indicators ▸ hc) ?_ ?_)
    · intro r hr
      obtain ⟨k, hk⟩ := List.getElem?_of_mem hr
      exact ⟨_, List.mem_map_of_mem (List.mk_mem_zipIdx_iff_getElem?.2 hk), rfl, r.meaning_reread k⟩
    · intro r' hr'
      obtain ⟨⟨r, k⟩, hp, rfl⟩ := List.mem_map.1 hr'
      exact ⟨r, List.fst_mem_of_mem_zipIdx hp, rfl, (r.meaning_reread k).symm⟩

/-- The checked rules of a definition, defined over again from what is shown of them, pass the
checks. They are the same rules in the same order, at positions counted from zero without gaps, and
over every series they call for the same, or the same arithmetic fault keeps both definitions from
being ready. -/
theorem checkedRules_rebuilt (h : d.checkedRules = .ok rules) :
    ∃ rules', (d.rebuilt rules).checkedRules = .ok rules' ∧
      rules'.map Rule.index = List.range rules.length ∧
      List.Forall₂ Rule.Same rules rules' ∧
      ∀ closes, ((d.rebuilt rules).prepare closes).map PreparedStrategy.signals =
        (d.prepare closes).map PreparedStrategy.signals := by
  have read : (d.rebuilt rules).checkedRules = .ok (rules.zipIdx.map fun p => p.1.reread p.2) :=
    Rule.listOfDefinitions_definition 0 (Rule.checked_of_checkedRules h)
  refine ⟨_, read, ?_, Rule.forall₂_same_reread rules 0, fun closes => ?_⟩
  · rw [List.map_map, List.range_eq_range', ← List.zipIdx_map_snd 0 rules]
    rfl
  · rw [prepare_eq_ofRules h, prepare_eq_ofRules read, orFault_map, orFault_map]
    exact congrArg orFault (signals_reread d.name rules closes)

/-- Names with blanks and small letters, a rule without a list before the one that counts, a zero
with a sign and a period kept as a floating-point number. -/
theorem checkedRules_rebuilt_of_signed_zero :
    let two : JsonNumber :=
      .double ⟨false, 4503599627370496, -51, by decide, by decide, by decide, .inl (by decide)⟩
    let sma : List (String × Json) := [("period", .number two)]
    let d : Definition := ⟨"a", "S", "", "", [⟨" sell ", none⟩,
      ⟨"buy", some [⟨⟨"Price", []⟩, "greater_than", "value", some (.text " -0.1e-28 "), []⟩,
        ⟨⟨"price", []⟩, "Crosses_Above", "indicator", some (.text "sma"), sma⟩]⟩]⟩
    let tiny : Decimal := ⟨true, 0, 28, by decide, by decide⟩
    let rules : List Rule := [⟨1, .buy, [⟨.price, .greaterThan, .constant tiny⟩,
      ⟨.price, .crossesAbove, .indicator (.sma 2)⟩]⟩]
    d.checkedRules = .ok rules ∧
      ∃ rules', (d.rebuilt rules).checkedRules = .ok rules' ∧ rules'.map Rule.index = [0] ∧
        List.Forall₂ Rule.Same rules rules' := by
  intro two sma d tiny rules
  have checked : d.checkedRules.toOption.map (fun found => found) = some rules := by decide +kernel
  obtain ⟨_, h, rfl⟩ := exists_of_toOption_map checked
  obtain ⟨rules', read, positions, same, -⟩ := checkedRules_rebuilt h
  exact ⟨h, rules', read, positions, same⟩

end Definition
end Backtest
