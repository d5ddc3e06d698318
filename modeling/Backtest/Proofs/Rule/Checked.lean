/-
What checking a definition gives: the conditions of a rule one for one, and of the rules, in
order, those with a list of conditions, each under its position. Checking succeeds exactly when
every part does.
-/
import Backtest.Proofs.Chain
import Backtest.Rule.Reader
import Mathlib.Data.List.ReduceOption
import Mathlib.Data.Option.Basic

namespace Backtest

/-- A place is only seen in a problem. -/
theorem placed_eq_ok_iff {α : Type} {place : RulePlace} {x : Except RuleProblem α} {a : α} :
    placed place x = .ok a ↔ x = .ok a := by
  rcases x with e | b <;> simp [placed]

theorem placed_eq_error_iff {α : Type} {place : RulePlace} {x : Except RuleProblem α}
    {e : PlacedProblem} :
    placed place x = .error e ↔ ∃ problem, x = .error problem ∧ e = ⟨place, problem⟩ := by
  rcases x with problem | a <;> simp [placed, eq_comm]

/-- The conditions of a rule are checked one by one, each at its place. -/
theorem Condition.listOfDefinitions_eq_mapM (rule : Nat) (action : String) :
    ∀ (cs : List ConditionDefinition) (index : Nat), listOfDefinitions rule action index cs =
      (cs.zipIdx index).mapM fun p => placed ⟨rule, action, some p.2⟩ (ofDefinition p.1)
  | [], _ => rfl
  | c :: cs, index => by
    unfold listOfDefinitions
    rw [List.zipIdx_cons, List.mapM_cons, listOfDefinitions_eq_mapM rule action cs]

/-- The conditions of a rule are those of its definition, one for one. -/
theorem Condition.listOfDefinitions_eq_ok_iff {rule : Nat} {action : String} :
    ∀ {cs : List ConditionDefinition} {index : Nat} {conditions : List Condition},
      listOfDefinitions rule action index cs = .ok conditions ↔
        cs.map ofDefinition = conditions.map .ok
  | [], _, conditions => by
    cases conditions <;> simp [listOfDefinitions]
  | c :: cs, index, conditions => by
    unfold listOfDefinitions
    simp only [bind_eq_ok_iff, placed_eq_ok_iff, pure_eq_ok_iff, listOfDefinitions_eq_ok_iff]
    constructor
    · rintro ⟨first, hf, rest, hr, rfl⟩
      rw [List.map_cons, List.map_cons, hf, hr]
    · intro h
      rcases conditions with _ | ⟨first, rest⟩
      · cases h
      · rw [List.map_cons, List.map_cons, List.cons.injEq] at h
        exact ⟨first, h.1, rest, h.2, rfl⟩

namespace Rule

/-- Without a list of conditions a rule is checked for its action only, and does not count. -/
theorem ofDefinition_eq_none_iff {index : Nat} {r : RuleDefinition} :
    ofDefinition index r = .ok none ↔
      (∃ action, Action.ofText r.action = .ok action) ∧ r.conditions = none := by
  unfold ofDefinition
  simp only [bind_eq_ok_iff, placed_eq_ok_iff]
  rcases r.conditions with _ | cs
  · simp [pure_eq_ok_iff]
  · simp only [bind_eq_ok_iff, pure_eq_ok_iff]
    constructor
    · rintro ⟨_, _, _, _, h⟩; cases h
    · rintro ⟨_, h⟩; cases h

/-- With one it keeps its position, its action and all its conditions. -/
theorem ofDefinition_eq_some_iff {index : Nat} {r : RuleDefinition} {rule : Rule} :
    ofDefinition index r = .ok (some rule) ↔ rule.index = index ∧
      Action.ofText r.action = .ok rule.action ∧
      ∃ cs, r.conditions = some cs ∧ cs.map Condition.ofDefinition = rule.conditions.map .ok := by
  unfold ofDefinition
  simp only [bind_eq_ok_iff, placed_eq_ok_iff]
  rcases r.conditions with _ | cs
  · simp [pure_eq_ok_iff]
  · simp only [bind_eq_ok_iff, pure_eq_ok_iff, Condition.listOfDefinitions_eq_ok_iff,
      Option.some.injEq, exists_eq_left']
    constructor
    · rintro ⟨action, ha, conditions, hc, rfl⟩
      exact ⟨rfl, ha, hc⟩
    · rintro ⟨rfl, ha, hc⟩
      exact ⟨rule.action, ha, rule.conditions, hc, rfl⟩

/-- The rules are checked one by one, each at its position, and those that count are kept. -/
theorem listOfDefinitions_eq_mapM : ∀ (rs : List RuleDefinition) (index : Nat),
    listOfDefinitions index rs = (do
      let results ← (rs.zipIdx index).mapM fun p => ofDefinition p.2 p.1
      return results.reduceOption)
  | [], _ => rfl
  | r :: rs, index => by
    have kept : ∀ (result : Option Rule) (results : List (Option Rule)),
        (result :: results).reduceOption = result.toList ++ results.reduceOption := by
      intro result results
      cases result <;> rfl
    unfold listOfDefinitions
    rw [List.zipIdx_cons, List.mapM_cons, listOfDefinitions_eq_mapM rs]
    simp only [bind_assoc, pure_bind, kept]

/-- The rules that count, in order, among the results of checking each. -/
theorem listOfDefinitions_eq_ok_iff {rs : List RuleDefinition} {index : Nat} {rules : List Rule} :
    listOfDefinitions index rs = .ok rules ↔
      ∃ results : List (Option Rule), (rs.zipIdx index).map (fun p => ofDefinition p.2 p.1) =
        results.map .ok ∧ rules = results.reduceOption := by
  rw [listOfDefinitions_eq_mapM]
  simp only [bind_eq_ok_iff, mapM_eq_ok_iff, pure_eq_ok_iff, eq_comm (a := rules)]

/-- A rule counts if it comes out of checking the definition at some position. -/
theorem mem_listOfDefinitions {rs : List RuleDefinition} {rules : List Rule}
    (h : listOfDefinitions 0 rs = .ok rules) (rule : Rule) :
    rule ∈ rules ↔ ∃ k r, rs[k]? = some r ∧ ofDefinition k r = .ok (some rule) := by
  obtain ⟨results, hr, rfl⟩ := listOfDefinitions_eq_ok_iff.1 h
  rw [List.reduceOption_mem_iff]
  constructor
  · intro hm
    obtain ⟨⟨r, k⟩, hp, ho⟩ := step_of_mem hr hm
    exact ⟨k, r, List.mk_mem_zipIdx_iff_getElem?.1 hp, ho⟩
  · rintro ⟨k, r, hk, ho⟩
    obtain ⟨result, hm, ho'⟩ := result_of_mem hr (List.mk_mem_zipIdx_iff_getElem?.2 hk)
    rw [ho] at ho'
    cases ho'
    exact hm

/-- A definition with a list of conditions gives a rule that counts. -/
theorem exists_of_conditions {rs : List RuleDefinition} {rules : List Rule}
    (h : listOfDefinitions 0 rs = .ok rules) {r : RuleDefinition} (hr : r ∈ rs)
    {cs : List ConditionDefinition} (hc : r.conditions = some cs) :
    ∃ rule ∈ rules, Action.ofText r.action = .ok rule.action ∧
      cs.map Condition.ofDefinition = rule.conditions.map .ok := by
  obtain ⟨results, hres, rfl⟩ := listOfDefinitions_eq_ok_iff.1 h
  obtain ⟨k, hk⟩ := List.getElem?_of_mem hr
  obtain ⟨result, hm, ho⟩ := result_of_mem hres (List.mk_mem_zipIdx_iff_getElem?.2 hk)
  rcases result with _ | rule
  · rw [(ofDefinition_eq_none_iff.1 ho).2] at hc
    cases hc
  · obtain ⟨-, ha, cs', hc', conditions⟩ := ofDefinition_eq_some_iff.1 ho
    rw [hc] at hc'
    cases hc'
    exact ⟨rule, List.reduceOption_mem_iff.2 hm, ha, conditions⟩

end Rule
end Backtest
