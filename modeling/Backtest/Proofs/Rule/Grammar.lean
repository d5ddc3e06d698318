/-
What a condition can say, and what is wrong with one that says something else. A condition names an
indicator, an operator and an operand. Each of the three has what it denotes (`Denoted`) and what it
is refused for (`Refused`), both said without the reader. The parts count in this order, and last
whether the operator takes the operand. Whatever is written denotes something or is refused for
something, so the reader finds exactly that. It reads nothing else, and what passes has periods of 1
up to `2 ^ 32 - 1` bars and crosses indicators only.
-/
import Backtest.Proofs.Chain
import Backtest.Rule.Reader
import Mathlib.Data.Rat.Cast.Order

namespace Backtest

-- The power of naturals is the one of the core library in every context.
attribute [local instance (high)] instPowNat

/-! ## Periods -/

/-- The number itself, in whichever of the two ways it is kept. -/
def JsonNumber.value : JsonNumber → ℚ
  | .whole n => n
  | .double x => x.toRat

/-- A value is a period if it is a number, however kept, that is whole and from 1 to
`2 ^ 32 - 1`. -/
structure Json.IsPeriod (value : Json) (p : ℕ) : Prop where
  number : ∃ n : JsonNumber, value = .number n ∧ n.value = p
  pos : 1 ≤ p
  lt : p < 2 ^ 32

/-- What is wrong with the period among the parameters. Only a number that is kept as a whole one
is said to be too large. -/
inductive PeriodFault (params : List (String × Json)) : ParameterFault → Prop
  | missing (none : Json.member? params "period" = none) : PeriodFault params .missingPeriod
  | tooLarge {p : ℕ} (given : Json.member? params "period" = some (.number (.whole p)))
      (large : 2 ^ 32 ≤ p) : PeriodFault params (.periodTooLarge p)
  | noPeriod {value : Json} (given : Json.member? params "period" = some value)
      (other : ∀ p, ¬ value.IsPeriod p)
      (small : ∀ p : ℕ, value = .number (.whole p) → p < 2 ^ 32) :
    PeriodFault params (.noPeriod value)

theorem le_maxPeriod_iff {p : ℕ} : p ≤ maxPeriod ↔ p < 2 ^ 32 := by
  unfold maxPeriod
  omega

theorem Binary64.toNat?_eq_some_iff {x : Binary64} {n : ℕ} : x.toNat? = some n ↔ x.toRat = n := by
  unfold toNat?
  constructor
  · intro h
    split at h
    · next whole =>
      cases h
      have num : ((x.toRat.num.toNat : ℤ) : ℚ) = x.toRat.num := by
        rw [Int.toNat_of_nonneg (Rat.num_nonneg.2 whole.2)]
      rw [← Int.cast_natCast, num, Rat.coe_int_num_of_den_eq_one whole.1]
    · cases h
  · intro h
    rw [h]
    simp

namespace JsonNumber

theorem period?_of_value {n : JsonNumber} {p : ℕ} (h : n.value = p) (pos : 1 ≤ p)
    (lt : p < 2 ^ 32) : n.period? = some p := by
  cases n with
  | whole k =>
    have whole : k = p := Int.cast_injective (α := ℚ) h
    rw [whole]
    simp [period?]
  | double x =>
    refine Option.filter_eq_some_iff.2 ⟨Binary64.toNat?_eq_some_iff.2 h, ?_⟩
    simp only [Bool.and_eq_true, decide_eq_true_eq, le_maxPeriod_iff]
    exact ⟨pos, lt⟩

/-- A number kept as a floating-point one is tried for its bounds at once. -/
theorem value_of_period? {n : JsonNumber} {p : ℕ} (h : n.period? = some p) :
    n.value = p ∧ (n = .whole p ∨ 1 ≤ p ∧ p < 2 ^ 32) := by
  cases n with
  | whole k =>
    rw [period?] at h
    split at h
    · next nonneg =>
      cases h
      have same : ((k.toNat : ℕ) : ℤ) = k := Int.toNat_of_nonneg nonneg
      refine ⟨?_, .inl (by rw [same])⟩
      rw [value, ← Int.cast_natCast, same]
    · cases h
  | double x =>
    obtain ⟨whole, bounded⟩ := Option.filter_eq_some_iff.1 h
    simp only [Bool.and_eq_true, decide_eq_true_eq, le_maxPeriod_iff] at bounded
    exact ⟨Binary64.toNat?_eq_some_iff.1 whole, .inr bounded⟩

end JsonNumber

section Periods

variable {params : List (String × Json)} {subject : String}

theorem readPeriod_of_isPeriod {value : Json} {p : ℕ}
    (given : Json.member? params "period" = some value) (h : value.IsPeriod p) :
    readPeriod subject params = .ok p := by
  obtain ⟨⟨n, rfl, same⟩, pos, lt⟩ := h
  unfold readPeriod
  rw [given]
  simp only [JsonNumber.period?_of_value same pos lt]
  rw [if_neg (not_lt.2 (le_maxPeriod_iff.2 lt)), if_pos (Nat.pos_of_ne_zero (by omega))]

theorem readPeriod_of_fault {fault : ParameterFault} (h : PeriodFault params fault) :
    readPeriod subject params = .error (.invalidParameter subject fault) := by
  unfold readPeriod
  cases h with
  | missing none => rw [none]
  | @tooLarge p given large =>
    have kept : (JsonNumber.whole p).period? = some p := by simp [JsonNumber.period?]
    rw [given]
    simp only [kept]
    exact if_pos (lt_of_not_ge fun small => absurd (le_maxPeriod_iff.1 small) (not_lt.2 large))
  | @noPeriod value given other small =>
    rw [given]
    cases value with
    | number n =>
      cases hp : n.period? with
      | none => simp only [hp]
      | some p =>
        obtain ⟨same, kept⟩ := JsonNumber.value_of_period? hp
        have lt : p < 2 ^ 32 := by
          rcases kept with rfl | ⟨-, lt⟩
          · exact small p rfl
          · exact lt
        -- of the numbers that are read only zero is no period
        have zero : ¬ 0 < p := fun pos => other p ⟨⟨n, rfl, same⟩, pos, lt⟩
        simp only [hp]
        rw [if_neg (not_lt.2 (le_maxPeriod_iff.2 lt)), if_neg zero]
    | _ => rfl

/-- The parameters have a period or something is wrong with it. -/
theorem isPeriod_or_fault (params : List (String × Json)) :
    (∃ value p, Json.member? params "period" = some value ∧ value.IsPeriod p) ∨
      ∃ fault, PeriodFault params fault := by
  cases given : Json.member? params "period" with
  | none => exact .inr ⟨_, .missing given⟩
  | some value =>
    by_cases period : ∃ p, value.IsPeriod p
    · obtain ⟨p, hp⟩ := period
      exact .inl ⟨value, p, rfl, hp⟩
    · by_cases large : ∃ p : ℕ, value = .number (.whole p) ∧ 2 ^ 32 ≤ p
      · obtain ⟨p, rfl, hp⟩ := large
        exact .inr ⟨_, .tooLarge given hp⟩
      · refine .inr ⟨_, .noPeriod given (not_exists.1 period) fun p hp => ?_⟩
        exact lt_of_not_ge fun h => large ⟨p, hp, h⟩

/-- Of the parameters only the period is read. -/
theorem readPeriod_congr {params' : List (String × Json)}
    (same : Json.member? params' "period" = Json.member? params "period") :
    readPeriod subject params' = readPeriod subject params := by
  unfold readPeriod
  rw [same]

end Periods

/-! ## Indicators -/

namespace Indicator

/-- The indicators over a period, by their names. -/
def periodic : List (String × (ℕ → Indicator)) :=
  [("SMA", sma), ("EMA", ema), ("RSI", rsi)]

/-- A kind that names one of them. -/
def IsPeriodic (kind : String) : Prop :=
  Text.name kind ∈ periodic.map Prod.fst

/-- What a kind with parameters denotes. The price takes no parameters. -/
inductive Denoted (kind : String) (params : List (String × Json)) : Indicator → Prop
  | price (name : Text.name kind = "PRICE") : Denoted kind params .price
  | periodic {family : ℕ → Indicator} {value : Json} {p : ℕ}
      (name : (Text.name kind, family) ∈ periodic)
      (given : Json.member? params "period" = some value) (period : value.IsPeriod p) :
    Denoted kind params (family p)

/-- What a kind with parameters is refused for. -/
inductive Refused (kind : String) (params : List (String × Json)) : RuleProblem → Prop
  | unknown (price : Text.name kind ≠ "PRICE") (other : ¬ IsPeriodic kind) :
    Refused kind params (.unsupportedIndicator kind)
  | period {fault : ParameterFault} (name : IsPeriodic kind) (wrong : PeriodFault params fault) :
    Refused kind params (.invalidParameter (Text.name kind) fault)

variable {kind : String} {params : List (String × Json)}

theorem isPeriodic_iff :
    IsPeriodic kind ↔ ∃ family, (Text.name kind, family) ∈ periodic := by
  simp [IsPeriodic, List.mem_map]

theorem ofDefinition_of_periodic {family : ℕ → Indicator}
    (name : (Text.name kind, family) ∈ periodic) :
    ofDefinition kind params = (do return family (← readPeriod (Text.name kind) params)) := by
  simp only [periodic, List.mem_cons, Prod.mk.injEq, List.not_mem_nil, or_false] at name
  unfold ofDefinition
  rcases name with ⟨name, rfl⟩ | ⟨name, rfl⟩ | ⟨name, rfl⟩ <;> simp [name]

theorem ofDefinition_of_denoted {i : Indicator} (h : Denoted kind params i) :
    ofDefinition kind params = .ok i := by
  cases h with
  | price name => simp [ofDefinition, name]
  | periodic name given period =>
    rw [ofDefinition_of_periodic name, readPeriod_of_isPeriod given period]
    rfl

theorem ofDefinition_of_refused {problem : RuleProblem} (h : Refused kind params problem) :
    ofDefinition kind params = .error problem := by
  cases h with
  | unknown price other =>
    simp only [IsPeriodic, periodic, List.map_cons, List.map_nil, List.mem_cons, List.not_mem_nil,
      or_false, not_or] at other
    simp [ofDefinition, price, other]
  | period name wrong =>
    obtain ⟨family, name⟩ := isPeriodic_iff.1 name
    rw [ofDefinition_of_periodic name, readPeriod_of_fault wrong]
    rfl

theorem denoted_or_refused (kind : String) (params : List (String × Json)) :
    (∃ i, Denoted kind params i) ∨ ∃ problem, Refused kind params problem := by
  by_cases price : Text.name kind = "PRICE"
  · exact .inl ⟨_, .price price⟩
  · by_cases name : IsPeriodic kind
    · obtain ⟨value, p, given, period⟩ | ⟨fault, wrong⟩ := isPeriod_or_fault params
      · obtain ⟨family, name⟩ := isPeriodic_iff.1 name
        exact .inl ⟨_, .periodic name given period⟩
      · exact .inr ⟨_, .period name wrong⟩
    · exact .inr ⟨_, .unknown price name⟩

/-- Parameters are read only where the kind takes a period, and only for that. -/
theorem ofDefinition_congr {params' : List (String × Json)}
    (same : IsPeriodic kind → Json.member? params' "period" = Json.member? params "period") :
    ofDefinition kind params' = ofDefinition kind params := by
  by_cases name : IsPeriodic kind
  · obtain ⟨family, known⟩ := isPeriodic_iff.1 name
    rw [ofDefinition_of_periodic known, ofDefinition_of_periodic known,
      readPeriod_congr (same name)]
  · obtain ⟨i, h⟩ | ⟨problem, h⟩ := denoted_or_refused kind params
    · cases h with
      | price price =>
        rw [ofDefinition_of_denoted (.price price), ofDefinition_of_denoted (.price price)]
      | periodic known => exact absurd (isPeriodic_iff.2 ⟨_, known⟩) name
    · cases h with
      | unknown price =>
        rw [ofDefinition_of_refused (.unknown price name),
          ofDefinition_of_refused (.unknown price name)]
      | period known => exact absurd known name

/-- The period of an indicator that has one. -/
def period? : Indicator → Option ℕ
  | price => none
  | sma p | ema p | rsi p => some p

theorem Denoted.period_bounds {i : Indicator} (h : Denoted kind params i) {p : ℕ}
    (hp : i.period? = some p) : 1 ≤ p ∧ p < 2 ^ 32 := by
  cases h with
  | price => cases hp
  | @periodic family value q name given period =>
    have same : (family q).period? = some q := by
      simp only [Indicator.periodic, List.mem_cons, Prod.mk.injEq, List.not_mem_nil,
        or_false] at name
      rcases name with ⟨-, rfl⟩ | ⟨-, rfl⟩ | ⟨-, rfl⟩ <;> rfl
    cases same.symm.trans hp
    exact ⟨period.pos, period.lt⟩

end Indicator

/-! ## Names -/

theorem Action.ofText_of_name {text : String} {a : Action} (name : Text.name text = a.text) :
    ofText text = .ok a := by
  unfold ofText
  rw [name]
  cases a <;> rfl

theorem Action.ofText_of_unknown {text : String} (other : ∀ a : Action, Text.name text ≠ a.text) :
    ofText text = .error (.unsupportedAction text) := by
  unfold ofText
  exact (if_neg (other .buy)).trans (if_neg (other .sell))

theorem Action.ofText_iff (text : String) :
    (∀ a, ofText text = .ok a ↔ Text.name text = a.text) ∧
    ∀ problem, ofText text = .error problem ↔
      (∀ a : Action, Text.name text ≠ a.text) ∧ problem = .unsupportedAction text := by
  refine outcome_iff_of_described ofText_of_name ?_ ?_
  · rintro _ ⟨other, rfl⟩
    exact ofText_of_unknown other
  · by_cases known : ∃ a : Action, Text.name text = a.text
    · exact .inl known
    · exact .inr ⟨_, not_exists.1 known, rfl⟩

theorem Operator.ofText_of_name {text : String} {o : Operator} (name : Text.name text = o.text) :
    ofText text = .ok o := by
  unfold ofText
  rw [name]
  cases o <;> rfl

theorem Operator.ofText_of_unknown {text : String}
    (other : ∀ o : Operator, Text.name text ≠ o.text) :
    ofText text = .error (.unsupportedOperator text) := by
  unfold ofText
  calc _ = _ := if_neg (other .greaterThan)
    _ = _ := if_neg (other .lessThan)
    _ = _ := if_neg (other .crossesAbove)
    _ = _ := if_neg (other .crossesBelow)

/-! ## Operands -/

/-- The text of an amount: what is written without the blanks around it, or the number itself. -/
def Json.amountText? : Json → Option String
  | .text s => some (Text.trim s)
  | .number n => some (String.ofList n.chars)
  | _ => none

/-- What is wrong with an amount. -/
inductive AmountFault : Option Json → ParameterFault → Prop
  | missing : AmountFault none .missingLiteral
  | noLiteral {value : Json} (other : value.amountText? = none) :
    AmountFault (some value) (.noLiteral value)
  | notDecimal {value : Json} {text : String} (written : value.amountText? = some text)
      (other : Decimal.ofText? text = none) : AmountFault (some value) (.notDecimal text)

theorem readLiteral_of_amountText {value : Json} {text : String} {d : Decimal}
    (written : value.amountText? = some text) (amount : Decimal.ofText? text = some d) :
    readLiteral (some value) = .ok d := by
  cases value <;> cases written <;> simp [readLiteral, amount]

theorem readLiteral_of_fault {value : Option Json} {fault : ParameterFault}
    (h : AmountFault value fault) : readLiteral value = .error (.invalidParameter "VALUE" fault) := by
  cases h with
  | missing => rfl
  | @noLiteral value other =>
    cases value with
    | text | number => cases other
    | _ => rfl
  | @notDecimal value text written other =>
    cases value <;> cases written <;> simp [readLiteral, other]

theorem amount_or_fault (value : Option Json) :
    (∃ v text d, value = some v ∧ v.amountText? = some text ∧ Decimal.ofText? text = some d) ∨
      ∃ fault, AmountFault value fault := by
  cases value with
  | none => exact .inr ⟨_, .missing⟩
  | some v =>
    cases written : v.amountText? with
    | none => exact .inr ⟨_, .noLiteral written⟩
    | some text =>
      cases amount : Decimal.ofText? text with
      | none => exact .inr ⟨_, .notDecimal written amount⟩
      | some d => exact .inl ⟨v, text, d, rfl, written, amount⟩

namespace Operand

/-- What the operand of a condition denotes. -/
inductive Denoted (c : ConditionDefinition) : Operand → Prop
  | constant {value : Json} {text : String} {d : Decimal}
      (type : Text.name c.operandType = "VALUE") (given : c.operandValue = some value)
      (written : value.amountText? = some text) (amount : Decimal.ofText? text = some d) :
    Denoted c (.constant d)
  | indicator {kind : String} {i : Indicator} (type : Text.name c.operandType = "INDICATOR")
      (given : c.operandValue = some (.text kind))
      (denoted : Indicator.Denoted kind c.operandParams i) : Denoted c (.indicator i)

/-- What the operand of a condition is refused for. A kind that is no text is shown as it is
written. -/
inductive Refused (c : ConditionDefinition) : RuleProblem → Prop
  | unknown (value : Text.name c.operandType ≠ "VALUE")
      (indicator : Text.name c.operandType ≠ "INDICATOR") :
    Refused c (.unsupportedOperandType c.operandType)
  | amount {fault : ParameterFault} (type : Text.name c.operandType = "VALUE")
      (wrong : AmountFault c.operandValue fault) : Refused c (.invalidParameter "VALUE" fault)
  | missingKind (type : Text.name c.operandType = "INDICATOR") (none : c.operandValue = none) :
    Refused c (.unsupportedIndicator "")
  | noKind {value : Json} (type : Text.name c.operandType = "INDICATOR")
      (given : c.operandValue = some value) (other : ∀ kind, value ≠ .text kind) :
    Refused c (.unsupportedIndicator value.compact)
  | indicator {kind : String} {problem : RuleProblem}
      (type : Text.name c.operandType = "INDICATOR") (given : c.operandValue = some (.text kind))
      (refused : Indicator.Refused kind c.operandParams problem) : Refused c problem

variable {c : ConditionDefinition}

theorem ofDefinition_of_denoted {o : Operand} (h : Denoted c o) : ofDefinition c = .ok o := by
  cases h with
  | constant type given written amount =>
    simp only [ofDefinition, type, if_true, given, readLiteral_of_amountText written amount]
    rfl
  | indicator type given denoted =>
    simp only [ofDefinition, type, given, Indicator.ofDefinition_of_denoted denoted]
    rfl

theorem ofDefinition_of_refused {problem : RuleProblem} (h : Refused c problem) :
    ofDefinition c = .error problem := by
  cases h with
  | unknown value indicator => simp [ofDefinition, value, indicator]
  | amount type wrong =>
    simp only [ofDefinition, type, if_true, readLiteral_of_fault wrong]
    rfl
  | missingKind type none => simp [ofDefinition, type, none]
  | @noKind value type given other =>
    cases value with
    | text kind => exact absurd rfl (other kind)
    | _ => simp [ofDefinition, type, given]
  | indicator type given refused =>
    simp only [ofDefinition, type, given, Indicator.ofDefinition_of_refused refused]
    rfl

theorem denoted_or_refused (c : ConditionDefinition) :
    (∃ o, Denoted c o) ∨ ∃ problem, Refused c problem := by
  by_cases value : Text.name c.operandType = "VALUE"
  · obtain ⟨v, text, d, given, written, amount⟩ | ⟨fault, wrong⟩ := amount_or_fault c.operandValue
    · exact .inl ⟨_, .constant value given written amount⟩
    · exact .inr ⟨_, .amount value wrong⟩
  · by_cases indicator : Text.name c.operandType = "INDICATOR"
    · cases given : c.operandValue with
      | none => exact .inr ⟨_, .missingKind indicator given⟩
      | some v =>
        by_cases text : ∃ kind, v = .text kind
        · obtain ⟨kind, rfl⟩ := text
          obtain ⟨i, h⟩ | ⟨problem, h⟩ := Indicator.denoted_or_refused kind c.operandParams
          · exact .inl ⟨_, .indicator indicator given h⟩
          · exact .inr ⟨_, .indicator indicator given h⟩
        · exact .inr ⟨_, .noKind indicator given (not_exists.1 text)⟩
    · exact .inr ⟨_, .unknown value indicator⟩

end Operand

/-! ## Conditions -/

namespace Condition

/-- What a condition denotes. Only an indicator can be crossed. -/
structure Denoted (c : ConditionDefinition) (condition : Condition) : Prop where
  left : Indicator.Denoted c.left.kind c.left.params condition.left
  operator : Text.name c.operator = condition.operator.text
  right : Operand.Denoted c condition.right
  crossing : condition.operator.isCross = true → ∃ i, condition.right = .indicator i

/-- What a condition is refused for: the first of its parts that is refused, or, when all three
denote something, that it crosses an amount. -/
inductive Refused (c : ConditionDefinition) : RuleProblem → Prop
  | left {problem : RuleProblem} (refused : Indicator.Refused c.left.kind c.left.params problem) :
    Refused c problem
  | operator {i : Indicator} (left : Indicator.Denoted c.left.kind c.left.params i)
      (other : ∀ o : Operator, Text.name c.operator ≠ o.text) :
    Refused c (.unsupportedOperator c.operator)
  | right {i : Indicator} {o : Operator} {problem : RuleProblem}
      (left : Indicator.Denoted c.left.kind c.left.params i)
      (operator : Text.name c.operator = o.text) (refused : Operand.Refused c problem) :
    Refused c problem
  | crossing {i : Indicator} {o : Operator} {d : Decimal}
      (left : Indicator.Denoted c.left.kind c.left.params i)
      (operator : Text.name c.operator = o.text) (right : Operand.Denoted c (.constant d))
      (cross : o.isCross = true) : Refused c (.literalCross o d)

variable {c c' : ConditionDefinition}

theorem ofDefinition_of_denoted {condition : Condition} (h : Denoted c condition) :
    ofDefinition c = .ok condition := by
  unfold ofDefinition
  rw [Indicator.ofDefinition_of_denoted h.left, Operator.ofText_of_name h.operator,
    Operand.ofDefinition_of_denoted h.right]
  obtain ⟨left, operator, right⟩ := condition
  cases cross : operator.isCross with
  | false => simp [bind, Except.bind, pure, Except.pure, cross]
  | true =>
    obtain ⟨i, indicator⟩ := h.crossing cross
    simp only at indicator
    simp [bind, Except.bind, pure, Except.pure, cross, indicator]

theorem ofDefinition_of_refused {problem : RuleProblem} (h : Refused c problem) :
    ofDefinition c = .error problem := by
  unfold ofDefinition
  cases h with
  | left refused =>
    rw [Indicator.ofDefinition_of_refused refused]
    rfl
  | operator left other =>
    rw [Indicator.ofDefinition_of_denoted left, Operator.ofText_of_unknown other]
    rfl
  | right left operator refused =>
    rw [Indicator.ofDefinition_of_denoted left, Operator.ofText_of_name operator,
      Operand.ofDefinition_of_refused refused]
    rfl
  | crossing left operator right cross =>
    rw [Indicator.ofDefinition_of_denoted left, Operator.ofText_of_name operator,
      Operand.ofDefinition_of_denoted right]
    simp [bind, Except.bind, cross]

theorem denoted_or_refused (c : ConditionDefinition) :
    (∃ condition, Denoted c condition) ∨ ∃ problem, Refused c problem := by
  obtain ⟨i, left⟩ | ⟨problem, h⟩ := Indicator.denoted_or_refused c.left.kind c.left.params
  · by_cases known : ∃ o : Operator, Text.name c.operator = o.text
    · obtain ⟨o, operator⟩ := known
      obtain ⟨right, hr⟩ | ⟨problem, h⟩ := Operand.denoted_or_refused c
      · -- what is left is whether the operator takes the operand
        cases right with
        | indicator j => exact .inl ⟨⟨i, o, .indicator j⟩, left, operator, hr, fun _ => ⟨j, rfl⟩⟩
        | constant d =>
          cases cross : o.isCross with
          | true => exact .inr ⟨_, .crossing left operator hr cross⟩
          | false =>
            refine .inl ⟨⟨i, o, .constant d⟩, left, operator, hr, fun h => ?_⟩
            rw [cross] at h
            cases h
      · exact .inr ⟨_, .right left operator h⟩
    · exact .inr ⟨_, .operator left (not_exists.1 known)⟩
  · exact .inr ⟨_, .left h⟩

/-- Definitions that say the same to a reader: of the parameters only a period counts, and only
where a kind takes one; those of an operand that is an amount do not count at all. -/
structure SameReading (c c' : ConditionDefinition) : Prop where
  kind : c'.left.kind = c.left.kind
  period : Indicator.IsPeriodic c.left.kind →
    Json.member? c'.left.params "period" = Json.member? c.left.params "period"
  operator : c'.operator = c.operator
  operandType : c'.operandType = c.operandType
  operandValue : c'.operandValue = c.operandValue
  operandPeriod : ∀ kind, Text.name c.operandType = "INDICATOR" →
    c.operandValue = some (.text kind) → Indicator.IsPeriodic kind →
    Json.member? c'.operandParams "period" = Json.member? c.operandParams "period"

theorem operand_congr (same : SameReading c c') :
    Operand.ofDefinition c' = Operand.ofDefinition c := by
  unfold Operand.ofDefinition
  rw [same.operandType, same.operandValue]
  by_cases type : Text.name c.operandType = "INDICATOR"
  · rcases given : c.operandValue with _ | value
    · rfl
    · cases value with
      | text kind =>
        simp only [type]
        rw [Indicator.ofDefinition_congr (same.operandPeriod kind type given)]
      | _ => rfl
  · simp only [type, if_false]

theorem ofDefinition_congr (same : SameReading c c') : ofDefinition c' = ofDefinition c := by
  unfold ofDefinition
  rw [same.kind, same.operator, Indicator.ofDefinition_congr same.period, operand_congr same]

theorem Denoted.period_bounds {condition : Condition} (h : Denoted c condition) :
    ∀ i ∈ condition.indicators, ∀ p, i.period? = some p → 1 ≤ p ∧ p < 2 ^ 32 := by
  obtain ⟨i, o, right⟩ := condition
  intro j hj p hp
  cases right with
  | constant d =>
    rw [indicators, List.mem_singleton] at hj
    subst hj
    exact h.left.period_bounds hp
  | indicator k =>
    rw [indicators, List.mem_cons, List.mem_singleton] at hj
    rcases hj with rfl | rfl
    · exact h.left.period_bounds hp
    · cases h.right with
      | indicator _ _ denoted => exact denoted.period_bounds hp

/-- The reader takes exactly the conditions that denote something, for what they denote, and refuses
every other for the first thing that is wrong with it. Whatever else the definition says makes no
difference. What it has taken has periods of 1 up to `2 ^ 32 - 1` bars only, and crosses no
amount. -/
theorem ofDefinition_iff_grammar (c : ConditionDefinition) :
    (∀ condition, ofDefinition c = .ok condition ↔ Denoted c condition) ∧
    (∀ problem, ofDefinition c = .error problem ↔ Refused c problem) ∧
    (∀ c', SameReading c c' → ofDefinition c' = ofDefinition c) ∧
    ∀ condition, ofDefinition c = .ok condition →
      (∀ i ∈ condition.indicators, ∀ p, i.period? = some p → 1 ≤ p ∧ p < 2 ^ 32) ∧
      (condition.operator.isCross = true → ∃ i, condition.right = .indicator i) := by
  obtain ⟨taken, refused⟩ :=
    outcome_iff_of_described ofDefinition_of_denoted ofDefinition_of_refused (denoted_or_refused c)
  refine ⟨taken, refused, fun c' => ofDefinition_congr, fun condition h => ?_⟩
  have denoted := (taken condition).1 h
  exact ⟨denoted.period_bounds, denoted.crossing⟩

/-- A period kept as a floating-point number, names with blanks and small letters, and parameters
that nobody reads. -/
theorem ofDefinition_iff_grammar_of_crossed_price :
    let two : JsonNumber :=
      .double ⟨false, 4503599627370496, -51, by decide, by decide, by decide, .inl (by decide)⟩
    let c : ConditionDefinition :=
      ⟨⟨" sma ", [("period", .number two)]⟩, "Crosses_Above", "indicator", some (.text "Price"), []⟩
    let c' : ConditionDefinition :=
      { c with
        left := ⟨" sma ", [("bars", .null), ("period", .number two)]⟩
        operandParams := [("period", .boolean true)] }
    let condition : Condition := ⟨.sma 2, .crossesAbove, .indicator .price⟩
    SameReading c c' ∧ ofDefinition c = .ok condition ∧ ofDefinition c' = .ok condition ∧
      (∀ i ∈ condition.indicators, ∀ p, i.period? = some p → 1 ≤ p ∧ p < 2 ^ 32) ∧
      condition.operator.isCross = true ∧ ∃ i, condition.right = .indicator i := by
  intro two c c' condition
  have sma : Text.name " sma " = "SMA" := by decide +kernel
  have price : Text.name "Price" = "PRICE" := by decide +kernel
  have two_bars : (Json.number two).IsPeriod 2 :=
    ⟨⟨two, rfl, by decide +kernel⟩, by decide, by decide⟩
  have left : Indicator.Denoted c.left.kind c.left.params (.sma 2) :=
    .periodic (by rw [sma]; exact List.mem_cons_self) rfl two_bars
  have denoted : Denoted c condition :=
    ⟨left, by decide +kernel, .indicator (by decide +kernel) rfl (.price price), fun _ => ⟨_, rfl⟩⟩
  have same : SameReading c c' := by
    refine ⟨rfl, fun _ => rfl, rfl, rfl, rfl, fun kind _ given periodic => ?_⟩
    cases given
    rw [Indicator.IsPeriodic, price] at periodic
    exact absurd periodic (by decide)
  obtain ⟨taken, -, reading, sound⟩ := ofDefinition_iff_grammar c
  have result := (taken _).2 denoted
  obtain ⟨periods, crossing⟩ := sound _ result
  exact ⟨same, result, (reading c' same).trans result, periods, rfl, crossing rfl⟩

-- the period counts before an operator that there is none of
example : ofDefinition
    ⟨⟨"ema", [("period", .number (.whole 0))]⟩, "EQUALS", "VALUE", none, []⟩ =
      .error (.invalidParameter "EMA" (.noPeriod (.number (.whole 0)))) := rfl

end Condition
end Backtest
