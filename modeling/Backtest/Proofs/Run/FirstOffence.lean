/-
The problem that is reported. A rule offends by an action that there is none of, or by one of the
conditions that it lists; without a list it can still offend by its action. Of all offences of a
definition the one at the first place is reported, by the checks and by everything that goes through
them: making a strategy ready, and running it over a series. Without an offence the rules with a
list are what counts, each as it was defined.
-/
import Backtest.Proofs.Rule.Grammar
import Backtest.Proofs.Run.RuleSets

namespace Backtest

/-! ## The order of places -/

/-- The turn of a place in its rule: first the action, then the conditions in order. -/
def RulePlace.turn (p : RulePlace) : ℕ :=
  p.condition.elim 0 (· + 1)

/-- The order in which places are looked at, rule by rule. -/
def RulePlace.Before (p q : RulePlace) : Prop :=
  p.rule < q.rule ∨ p.rule = q.rule ∧ p.turn < q.turn

/-- One of the problems, with no other at a place before its own. -/
structure IsFirst (offends : PlacedProblem → Prop) (e : PlacedProblem) : Prop where
  offence : offends e
  first : ∀ e', offends e' → ¬ e'.place.Before e.place

/-! ## Rules -/

/-- What is wrong with the rule at a position. -/
inductive RuleDefinition.Offends (r : RuleDefinition) (k : ℕ) : PlacedProblem → Prop
  | action (unknown : ∀ a : Action, Text.name r.action ≠ a.text) :
    Offends r k ⟨⟨k, r.action, none⟩, .unsupportedAction r.action⟩
  | condition {cs : List ConditionDefinition} {j : ℕ} {c : ConditionDefinition}
      {problem : RuleProblem} (listed : r.conditions = some cs) (here : cs[j]? = some c)
      (refused : Condition.ofDefinition c = .error problem) :
    Offends r k ⟨⟨k, r.action, some j⟩, problem⟩

namespace RuleDefinition.Offends

variable {r : RuleDefinition} {k : ℕ} {e e' : PlacedProblem}

theorem rule (h : r.Offends k e) : e.place.rule = k := by
  cases h <;> rfl

/-- At one turn a rule has at most one problem. -/
theorem eq_of_turn (h : r.Offends k e) (h' : r.Offends k e') (turn : e.place.turn = e'.place.turn) :
    e = e' := by
  cases h with
  | action =>
    cases h' with
    | action => rfl
    | condition => cases turn
  | condition listed here refused =>
    cases h' with
    | action => cases turn
    | condition listed' here' refused' =>
      cases Nat.succ.inj turn
      cases listed.symm.trans listed'
      cases here.symm.trans here'
      cases refused.symm.trans refused'
      rfl

end RuleDefinition.Offends

/-- What the rule at a position comes to when it counts. -/
structure RuleDefinition.Gives (p : RuleDefinition × ℕ) (rule : Rule) : Prop where
  index : rule.index = p.2
  action : Text.name p.1.action = rule.action.text
  conditions : ∃ cs, p.1.conditions = some cs ∧
    cs.map Condition.ofDefinition = rule.conditions.map .ok

/-- A list of conditions fails at the first that is refused. -/
theorem Condition.exists_of_listOfDefinitions_eq_error {rule : ℕ} {action : String}
    {cs : List ConditionDefinition} {e : PlacedProblem}
    (h : listOfDefinitions rule action 0 cs = .error e) :
    ∃ j c problem, cs[j]? = some c ∧ ofDefinition c = .error problem ∧
      e = ⟨⟨rule, action, some j⟩, problem⟩ ∧
      ∀ i < j, ∀ c', cs[i]? = some c' → ∃ condition, ofDefinition c' = .ok condition := by
  rw [listOfDefinitions_eq_mapM] at h
  obtain ⟨j, c, here, fault, before⟩ := exists_of_mapM_zipIdx_eq_error h
  obtain ⟨problem, refused, rfl⟩ := placed_eq_error_iff.1 fault
  refine ⟨j, c, problem, here, refused, rfl, fun i hi c' hc => ?_⟩
  obtain ⟨condition, ok⟩ := before i hi c' hc
  exact ⟨condition, placed_eq_ok_iff.1 ok⟩

namespace Rule

variable {k : ℕ} {r : RuleDefinition}

/-- A rule that fails does so at its action, or else at the first condition that is refused. -/
theorem isFirst_of_ofDefinition {e : PlacedProblem} (h : ofDefinition k r = .error e) :
    IsFirst (r.Offends k) e := by
  unfold ofDefinition at h
  rcases bind_eq_error_iff.1 h with fault | ⟨a, known, h⟩
  · obtain ⟨problem, misread, rfl⟩ := placed_eq_error_iff.1 fault
    obtain ⟨unknown, rfl⟩ := ((Action.ofText_iff r.action).2 problem).1 misread
    refine ⟨.action unknown, ?_⟩
    -- nothing in a rule comes before its action
    rintro _ (_ | _) earlier <;> simp [RulePlace.Before, RulePlace.turn] at earlier
  · have name := ((Action.ofText_iff r.action).1 a).1 (placed_eq_ok_iff.1 known)
    cases listed : r.conditions with
    | none =>
      rw [listed] at h
      cases h
    | some cs =>
      rw [listed] at h
      rcases bind_eq_error_iff.1 h with fault | ⟨conditions, -, h⟩
      · obtain ⟨j, c, problem, here, refused, rfl, before⟩ :=
          Condition.exists_of_listOfDefinitions_eq_error fault
        refine ⟨.condition listed here refused, fun e' offends earlier => ?_⟩
        cases offends with
        | action unknown => exact unknown a name
        | @condition cs' i c' problem' listed' here' refused' =>
          cases listed.symm.trans listed'
          have lt : i < j := by simpa [RulePlace.Before, RulePlace.turn] using earlier
          obtain ⟨condition, taken⟩ := before i lt c' here'
          cases taken.symm.trans refused'
      · cases h

theorem not_offends_of_ofDefinition {o : Option Rule} (h : ofDefinition k r = .ok o)
    (e : PlacedProblem) : ¬ r.Offends k e := by
  intro offends
  cases o with
  | none =>
    obtain ⟨⟨a, known⟩, unlisted⟩ := ofDefinition_eq_none_iff.1 h
    cases offends with
    | action unknown => exact unknown a (((Action.ofText_iff _).1 a).1 known)
    | condition listed => cases listed.symm.trans unlisted
  | some rule =>
    obtain ⟨-, known, cs, listed, taken⟩ := ofDefinition_eq_some_iff.1 h
    cases offends with
    | action unknown => exact unknown rule.action (((Action.ofText_iff _).1 _).1 known)
    | condition listed' here refused =>
      cases listed.symm.trans listed'
      obtain ⟨condition, -, ok⟩ := result_of_mem taken (List.mem_of_getElem? here)
      cases ok.symm.trans refused

/-- Of rules that pass, those with a list come out, in order. -/
theorem forall₂_gives : ∀ {ps : List (RuleDefinition × ℕ)} {results : List (Option Rule)},
    ps.map (fun p => ofDefinition p.2 p.1) = results.map .ok →
    List.Forall₂ RuleDefinition.Gives (ps.filter (·.1.conditions.isSome)) results.reduceOption
  | [], results, h => by
    cases List.map_eq_nil_iff.1 h.symm
    exact .nil
  | p :: ps, results, h => by
    rcases results with _ | ⟨result, results⟩
    · cases h
    · rw [List.map_cons, List.map_cons, List.cons.injEq] at h
      obtain ⟨first, rest⟩ := h
      cases result with
      | none =>
        have unlisted : p.1.conditions = none := (ofDefinition_eq_none_iff.1 first).2
        rw [List.filter_cons_of_neg (by rw [unlisted]; decide), List.reduceOption_cons_of_none]
        exact forall₂_gives rest
      | some rule =>
        obtain ⟨index, action, cs, listed, taken⟩ := ofDefinition_eq_some_iff.1 first
        rw [List.filter_cons_of_pos (by rw [listed]; rfl), List.reduceOption_cons_of_some]
        exact .cons ⟨index, ((Action.ofText_iff _).1 _).1 action, cs, listed, taken⟩
          (forall₂_gives rest)

end Rule

/-! ## Definitions -/

namespace Definition

/-- What is wrong with a definition, rule by rule. -/
def Offends (d : Definition) (e : PlacedProblem) : Prop :=
  ∃ (k : ℕ) (r : RuleDefinition), d.rules[k]? = some r ∧ r.Offends k e

variable {d : Definition} {e e' : PlacedProblem}

theorem isFirst_of_checkedRules (h : d.checkedRules = .error e) : IsFirst d.Offends e := by
  unfold checkedRules at h
  rw [Rule.listOfDefinitions_eq_mapM] at h
  cases checked : d.rules.zipIdx.mapM fun p => Rule.ofDefinition p.2 p.1 with
  | ok results =>
    rw [checked] at h
    cases h
  | error e' =>
    rw [checked] at h
    cases h
    obtain ⟨k, r, here, fault, before⟩ := exists_of_mapM_zipIdx_eq_error checked
    have first := Rule.isFirst_of_ofDefinition fault
    refine ⟨⟨k, r, here, first.offence⟩, ?_⟩
    rintro e'' ⟨k', r', here', offends'⟩ earlier
    rcases Nat.lt_trichotomy k' k with lt | rfl | gt
    · obtain ⟨o, ok⟩ := before k' lt r' here'
      exact Rule.not_offends_of_ofDefinition ok e'' offends'
    · cases here.symm.trans here'
      exact first.first e'' offends' earlier
    · have later : e.place.rule < e''.place.rule := by
        rwa [first.offence.rule, offends'.rule]
      rcases earlier with lt | ⟨same, -⟩
      · exact absurd lt (Nat.lt_asymm later)
      · exact absurd same (Nat.ne_of_gt later)

theorem not_offends_of_checkedRules {rules : List Rule} (h : d.checkedRules = .ok rules)
    (e : PlacedProblem) : ¬ d.Offends e := by
  rintro ⟨k, r, here, offends⟩
  obtain ⟨results, each, -⟩ := Rule.listOfDefinitions_eq_ok_iff.1 h
  obtain ⟨o, -, ok⟩ := result_of_mem each (List.mk_mem_zipIdx_iff_getElem?.2 here)
  exact Rule.not_offends_of_ofDefinition ok e offends

/-- Only one offence is the first. -/
theorem eq_of_isFirst (h : IsFirst d.Offends e) (h' : IsFirst d.Offends e') : e = e' := by
  obtain ⟨⟨k, r, here, offends⟩, first⟩ := h
  obtain ⟨⟨k', r', here', offends'⟩, first'⟩ := h'
  have turns := first _ ⟨k', r', here', offends'⟩
  have turns' := first' _ ⟨k, r, here, offends⟩
  simp only [RulePlace.Before, offends.rule, offends'.rule, not_or, not_and] at turns turns'
  obtain rfl : k = k' := by omega
  cases here.symm.trans here'
  exact offends.eq_of_turn offends' (by have := turns.2 rfl; have := turns'.2 rfl; omega)

theorem checkedRules_eq_error_iff : d.checkedRules = .error e ↔ IsFirst d.Offends e := by
  refine ⟨isFirst_of_checkedRules, fun first => ?_⟩
  cases checked : d.checkedRules with
  | ok rules => exact absurd first.offence (not_offends_of_checkedRules checked e)
  | error e' => rw [eq_of_isFirst (isFirst_of_checkedRules checked) first]

/-- Any number of offences leads to an error, and none to a result. -/
theorem exists_error_iff : (∃ e, d.checkedRules = .error e) ↔ ∃ e, d.Offends e := by
  constructor
  · rintro ⟨e, h⟩
    exact ⟨e, (isFirst_of_checkedRules h).offence⟩
  · rintro ⟨e, offends⟩
    cases checked : d.checkedRules with
    | ok rules => exact absurd offends (not_offends_of_checkedRules checked e)
    | error e' => exact ⟨e', rfl⟩

theorem exists_ok_iff : (∃ rules, d.checkedRules = .ok rules) ↔ ∀ e, ¬ d.Offends e := by
  constructor
  · rintro ⟨rules, h⟩
    exact not_offends_of_checkedRules h
  · intro clean
    cases checked : d.checkedRules with
    | ok rules => exact ⟨rules, rfl⟩
    | error e => exact absurd (isFirst_of_checkedRules checked).offence (clean e)

theorem forall₂_gives_of_checkedRules {rules : List Rule} (h : d.checkedRules = .ok rules) :
    List.Forall₂ RuleDefinition.Gives (d.rules.zipIdx.filter (·.1.conditions.isSome)) rules := by
  obtain ⟨results, each, rfl⟩ := Rule.listOfDefinitions_eq_ok_iff.1 h
  exact Rule.forall₂_gives each

/-- Making a strategy ready reports what the checks report, and no rule otherwise. -/
theorem prepare_eq_rule_iff (closes : List Decimal) :
    d.prepare closes = .error (.problem (.rule e)) ↔ d.checkedRules = .error e := by
  cases checked : d.checkedRules with
  | ok rules =>
    rcases prepare_of_checkedRules checked closes with ⟨s, h⟩ | ⟨fault, h⟩ <;> rw [h] <;> simp
  | error e' =>
    unfold prepare
    rw [checked]
    simp [orProblem, bind, Except.bind]

end Definition

/-- So does a run with some cash. -/
theorem Run.ofDefinition_eq_rule_iff {d : Definition} {series : Series} {cash : Decimal}
    {policy : OpenPositionPolicy} {e : PlacedProblem} (hc : cash.IsPositive) :
    ofDefinition d series cash policy = .error (.problem (.rule e)) ↔ d.checkedRules = .error e := by
  rw [← Definition.prepare_eq_rule_iff series.closes]
  cases prepared : d.prepare series.closes with
  | ok s =>
    rw [ofDefinition_of_prepare hc prepared policy]
    split
    · simp
    · cases ofStrategy s series cash policy <;> simp [orFault]
  | error failure => rw [ofDefinition_of_failure hc prepared policy]; simp

/-- The two headings under which a problem is reported tell parameters from features. -/
theorem PlacedProblem.heading_iff (e : PlacedProblem) :
    ("invalid parameter at ".toList <+: e.message.toList ↔
      ∃ subject fault, e.problem = .invalidParameter subject fault) ∧
    ("unsupported feature at ".toList <+: e.message.toList ↔
      ∀ subject fault, e.problem ≠ .invalidParameter subject fault) := by
  have text : e.message.toList =
      (if e.problem.isParameter then "invalid parameter at " else "unsupported feature at ").toList ++
        (e.place.text ++ ": " ++ e.problem.message).toList := by
    unfold message
    split <;> simp only [String.toList_append, List.append_assoc] <;> rfl
  rw [text]
  -- the first letters differ
  cases e.problem <;> simp [RuleProblem.isParameter]

namespace Definition

/-- The checks report the first offence there is, however many there are, and pass what has none,
with every rule that lists conditions as it is defined. Only a parameter that is wrong is reported
as one. Whatever else goes through the checks, for any closes and over any series, reports the same
problem with the rules, and none where the checks pass. -/
theorem checkedRules_first_offence (d : Definition) :
    ((∃ e, d.checkedRules = .error e) ↔ ∃ e, d.Offends e) ∧
    (∀ e, d.checkedRules = .error e ↔ IsFirst d.Offends e) ∧
    (∀ e : PlacedProblem, d.checkedRules = .error e →
      ("invalid parameter at ".toList <+: e.message.toList ↔
        ∃ subject fault, e.problem = .invalidParameter subject fault) ∧
      ("unsupported feature at ".toList <+: e.message.toList ↔
        ∀ subject fault, e.problem ≠ .invalidParameter subject fault)) ∧
    (∀ rules, d.checkedRules = .ok rules →
      List.Forall₂ RuleDefinition.Gives (d.rules.zipIdx.filter (·.1.conditions.isSome)) rules) ∧
    (∀ closes e, d.prepare closes = .error (.problem (.rule e)) ↔ d.checkedRules = .error e) ∧
    ∀ series cash policy, cash.IsPositive → ∀ e,
      Run.ofDefinition d series cash policy = .error (.problem (.rule e)) ↔
        d.checkedRules = .error e := by
  refine ⟨exists_error_iff, fun _ => checkedRules_eq_error_iff, fun e _ => e.heading_iff,
    fun _ => forall₂_gives_of_checkedRules, fun closes _ => prepare_eq_rule_iff closes, ?_⟩
  exact fun _ _ _ positive _ => Run.ofDefinition_eq_rule_iff positive

/-- Two rules that pass, one of them without a list, and then a rule with two conditions that are
refused and one with an unknown action. -/
theorem checkedRules_first_offence_of_crowded_rules :
    let price : IndicatorDefinition := ⟨"PRICE", []⟩
    let period : List (String × Json) := [("period", .number (.whole 2))]
    let below : ConditionDefinition :=
      ⟨price, "LESS_THAN", "INDICATOR", some (.text "SMA"), period⟩
    let d : Definition := ⟨"s", "s", "", "", [⟨"buy", none⟩, ⟨" Sell ", some [below]⟩]⟩
    let d' : Definition :=
      { d with
        rules := d.rules ++ [⟨"Buy", some [below, { below with left := ⟨"sma", []⟩ },
          { below with operator := "EQUALS" }]⟩, ⟨"hold", none⟩] }
    let e : PlacedProblem := ⟨⟨2, "Buy", some 1⟩, .invalidParameter "SMA" .missingPeriod⟩
    let rules : List Rule := [⟨1, .sell, [⟨.price, .lessThan, .indicator (.sma 2)⟩]⟩]
    d.checkedRules = .ok rules ∧
      List.Forall₂ RuleDefinition.Gives (d.rules.zipIdx.filter (·.1.conditions.isSome)) rules ∧
      d'.checkedRules = .error e ∧ IsFirst d'.Offends e ∧
      "invalid parameter at ".toList <+: e.message.toList ∧ Decimal.hundred.IsPositive ∧
      ∀ series policy, Run.ofDefinition d' series .hundred policy = .error (.problem (.rule e)) := by
  intro price period below d d' e rules
  have passed : d.checkedRules = .ok rules := by
    dsimp only [d, rules, below, price, period]
    rfl
  have refused : d'.checkedRules = .error e := by
    dsimp only [d', d, e, below, price, period]
    rfl
  have positive : Decimal.hundred.IsPositive := by decide
  obtain ⟨-, -, -, gives, -⟩ := checkedRules_first_offence d
  obtain ⟨-, first, heading, -, -, runs⟩ := checkedRules_first_offence d'
  exact ⟨passed, gives rules passed, refused, (first e).1 refused,
    (heading e refused).1.2 ⟨_, _, rfl⟩, positive,
    fun series policy => (runs series .hundred policy positive e).2 refused⟩

end Definition
end Backtest
