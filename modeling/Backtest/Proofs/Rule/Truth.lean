/-
When a condition is true: `Condition.Holds` says it for each operator in terms of the values on
both sides, and evaluation decides it. A predicate is true when all, or some, of its parts are.
Evaluation at a bar reads the indicators of the conditions at that bar and the one before.
-/
import Backtest.Rule.Predicate
import Mathlib.Tactic.Common

namespace Backtest

/-! ## Conditions -/

namespace Condition

/-- Both sides of the condition are defined at the bar, with these values. -/
def Reads (values : Lookup) (c : Condition) (index : Nat) (left right : Decimal) : Prop :=
  values c.left index = some left ∧ c.right.value? values index = some right

/-- The condition is true at the bar. A crossing needs both sides at the bar before as well, where
they may be equal. -/
def Holds (values : Lookup) (c : Condition) (index : Nat) : Prop :=
  match c.operator with
  | .greaterThan => ∃ left right, c.Reads values index left right ∧ right < left
  | .lessThan => ∃ left right, c.Reads values index left right ∧ left < right
  | .crossesAbove => ∃ before left' right' left right, index = before + 1 ∧
      c.Reads values before left' right' ∧ c.Reads values index left right ∧
      left' ≤ right' ∧ right < left
  | .crossesBelow => ∃ before left' right' left right, index = before + 1 ∧
      c.Reads values before left' right' ∧ c.Reads values index left right ∧
      right' ≤ left' ∧ left < right

theorem sides?_eq_some_iff {values : Lookup} {c : Condition} {index : Nat} {left right : Decimal} :
    c.sides? values index = some (left, right) ↔ c.Reads values index left right := by
  unfold sides? Reads
  rcases values c.left index with _ | l <;> rcases c.right.value? values index with _ | r <;> simp

/-- Evaluation decides whether a condition holds. -/
theorem evaluate_iff_holds (values : Lookup) (c : Condition) (index : Nat) :
    c.evaluate values index = true ↔ c.Holds values index := by
  unfold evaluate Holds
  simp only [← sides?_eq_some_iff]
  rcases hs : c.sides? values index with _ | ⟨left, right⟩
  · cases c.operator <;> simp
  · cases c.operator with
    | greaterThan => simp
    | lessThan => simp
    | crossesAbove =>
      cases index with
      | zero => simp
      | succ before => rcases hb : c.sides? values before with _ | ⟨left', right'⟩ <;> simp [hb]
    | crossesBelow =>
      cases index with
      | zero => simp
      | succ before => rcases hb : c.sides? values before with _ | ⟨left', right'⟩ <;> simp [hb]

/-- What a condition reads at a bar are the values of its own indicators there. -/
theorem Reads.of_agree {values values' : Lookup} {c : Condition} {index : Nat}
    {left right : Decimal} (hr : c.Reads values index left right)
    (h : ∀ i ∈ c.indicators, values i index = values' i index) :
    c.Reads values' index left right := by
  obtain ⟨hl, hr⟩ := hr
  unfold indicators at h
  unfold Reads
  rcases ho : c.right with value | i <;> rw [ho] at h hr
  · exact ⟨by rw [← h c.left (by simp), hl], hr⟩
  · exact ⟨by rw [← h c.left (by simp), hl], by simp only [Operand.value?, ← h i (by simp)]; exact hr⟩

theorem Holds.of_agree {values values' : Lookup} {c : Condition} {index : Nat}
    (hc : c.Holds values index)
    (h : ∀ i ∈ c.indicators, ∀ k ≤ index, values i k = values' i k) : c.Holds values' index := by
  have reads : ∀ {k left right}, k ≤ index → c.Reads values k left right →
      c.Reads values' k left right := fun hk hr => hr.of_agree fun i hi => h i hi _ hk
  unfold Holds at hc ⊢
  cases ho : c.operator <;> rw [ho] at hc
  · obtain ⟨left, right, hr, hlt⟩ := hc
    exact ⟨left, right, reads (Nat.le_refl _) hr, hlt⟩
  · obtain ⟨left, right, hr, hlt⟩ := hc
    exact ⟨left, right, reads (Nat.le_refl _) hr, hlt⟩
  · obtain ⟨before, left', right', left, right, rfl, hb, hr, hle, hlt⟩ := hc
    exact ⟨before, left', right', left, right, rfl, reads (by omega) hb, reads (by omega) hr, hle, hlt⟩
  · obtain ⟨before, left', right', left, right, rfl, hb, hr, hle, hlt⟩ := hc
    exact ⟨before, left', right', left, right, rfl, reads (by omega) hb, reads (by omega) hr, hle, hlt⟩

/-- The truth of a condition depends on its own indicators, at the bar and before it. -/
theorem holds_congr {values values' : Lookup} {c : Condition} {index : Nat}
    (h : ∀ i ∈ c.indicators, ∀ k ≤ index, values i k = values' i k) :
    c.Holds values index ↔ c.Holds values' index :=
  ⟨fun hc => hc.of_agree h, fun hc => hc.of_agree fun i hi k hk => (h i hi k hk).symm⟩

/-- A condition that holds has a value on its left side. -/
theorem Holds.left {values : Lookup} {c : Condition} {index : Nat} (h : c.Holds values index) :
    ∃ left, values c.left index = some left := by
  unfold Holds at h
  cases ho : c.operator <;> rw [ho] at h
  · obtain ⟨left, _, hr, -⟩ := h; exact ⟨left, hr.1⟩
  · obtain ⟨left, _, hr, -⟩ := h; exact ⟨left, hr.1⟩
  · obtain ⟨_, _, _, left, _, -, -, hr, -⟩ := h; exact ⟨left, hr.1⟩
  · obtain ⟨_, _, _, left, _, -, -, hr, -⟩ := h; exact ⟨left, hr.1⟩

end Condition

/-! ## Predicates -/

namespace Predicate

@[simp] theorem evaluate_compare (values : Lookup) (index : Nat) (c : Condition) :
    (compare c).evaluate values index = c.evaluate values index := by
  unfold evaluate; rfl

theorem evaluateAll_eq (values : Lookup) (index : Nat) : ∀ parts : List Predicate,
    evaluateAll values index parts = parts.all (evaluate values index)
  | [] => by unfold evaluateAll; rfl
  | p :: rest => by unfold evaluateAll; rw [List.all_cons, evaluateAll_eq values index rest]

theorem evaluateAny_eq (values : Lookup) (index : Nat) : ∀ parts : List Predicate,
    evaluateAny values index parts = parts.any (evaluate values index)
  | [] => by unfold evaluateAny; rfl
  | p :: rest => by unfold evaluateAny; rw [List.any_cons, evaluateAny_eq values index rest]

@[simp] theorem evaluate_all (values : Lookup) (index : Nat) (parts : List Predicate) :
    (all parts).evaluate values index = parts.all (evaluate values index) := by
  rw [evaluate, evaluateAll_eq]

@[simp] theorem evaluate_any (values : Lookup) (index : Nat) (parts : List Predicate) :
    (any parts).evaluate values index = parts.any (evaluate values index) := by
  rw [evaluate, evaluateAny_eq]

end Predicate
end Backtest
