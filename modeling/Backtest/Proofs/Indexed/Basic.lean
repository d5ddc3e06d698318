/-
Computations by indices. An access to a list may be past its end and a count may be taken below
zero; both stop a computation, as a failure does (`Stop`). A loop over the indices of a list shows
the same as a scan of the list if each of its steps does, up to a view of the state that may depend
on the index (`scanAt_eq_scan`).
-/
import Backtest.Run

namespace Backtest

/-- Why a computation by indices stops without a result. -/
inductive Stop where
  /-- The list has only `length` entries. -/
  | pastEnd (index length : Nat)
  /-- More is taken off than there is. -/
  | belowZero (count taken : Nat)
  | failure (failure : Failure)

/-- The entry at an index. -/
def entryAt {α : Type} (xs : List α) (index : Nat) : Except Stop α :=
  match xs[index]? with
  | some x => .ok x
  | none => .error (.pastEnd index xs.length)

/-- What is left of a count. -/
def countDown (count taken : Nat) : Except Stop Nat :=
  if taken ≤ count then .ok (count - taken) else .error (.belowZero count taken)

/-- A result without indices as part of a computation by indices. -/
def orStop {α : Type} : Except Failure α → Except Stop α
  | .ok a => .ok a
  | .error failure => .error (.failure failure)

/-- An arithmetic result as part of a computation by indices. -/
def calculated {α : Type} (x : Except Fault α) : Except Stop α :=
  orStop (orFault x)

theorem entryAt_of_getElem? {α : Type} {xs : List α} {index : Nat} {x : α}
    (h : xs[index]? = some x) : entryAt xs index = .ok x := by
  unfold entryAt
  rw [h]

/-- The first entry from an index on is the entry at the index. -/
theorem getElem?_of_drop_eq_cons {α : Type} {xs rest : List α} {index : Nat} {x : α}
    (h : xs.drop index = x :: rest) : xs[index]? = some x ∧ xs.drop (index + 1) = rest :=
  ⟨by rw [← List.head?_drop, h, List.head?_cons], by rw [← List.tail_drop, h, List.tail_cons]⟩

theorem countDown_of_le {count taken : Nat} (h : taken ≤ count) :
    countDown count taken = .ok (count - taken) :=
  if_pos h

section Chains

variable {α β : Type}

theorem orStop_bind (x : Except Failure α) (f : α → Except Failure β) :
    orStop (x >>= f) = orStop x >>= fun a => orStop (f a) := by
  rcases x with failure | a <;> rfl

theorem calculated_bind (x : Except Fault α) (f : α → Except Fault β) :
    calculated (x >>= f) = calculated x >>= fun a => calculated (f a) := by
  rcases x with fault | a <;> rfl

@[simp] theorem calculated_pure (a : α) : calculated (pure a) = pure a := rfl

theorem ok_bind {ε : Type} (a : α) (f : α → Except ε β) : Except.ok a >>= f = f a := rfl

end Chains

/-! ## Loops -/

namespace Indicator

/-- Show a value at each of the indices, one after another. -/
def scanAt {τ : Type} (step : τ → Nat → Except Stop (τ × Option Decimal)) :
    τ → List Nat → Except Stop Values
  | _, [] => .ok []
  | state, index :: rest => do
    let (state, shown) ← step state index
    let values ← scanAt step state rest
    return shown :: values

variable {σ τ : Type} {step : σ → Decimal → Except Fault (σ × Option Decimal)}
variable {stepAt : τ → Nat → Except Stop (τ × Option Decimal)} {closes : List Decimal}

/-- A loop over the indices from one on shows what the scan of the closes from there shows, if its
step does so at each index. -/
theorem scanAt_eq_scan (view : Nat → τ → σ) (first : Nat)
    (agree : ∀ index close t, first ≤ index → closes[index]? = some close →
      (fun p => (view (index + 1) p.1, p.2)) <$> stepAt t index =
        calculated (step (view index t) close)) :
    ∀ (rest : List Decimal) {index : Nat} (t : τ), first ≤ index → closes.drop index = rest →
      scanAt stepAt t (List.range' index rest.length) = calculated (scan step (view index t) rest)
  | [], _, _, _, _ => rfl
  | close :: rest, index, t, hf, hd => by
    obtain ⟨here, next⟩ := getElem?_of_drop_eq_cons hd
    have ih := fun t' => scanAt_eq_scan view first agree rest t' (Nat.le_succ_of_le hf) next
    rw [List.length_cons, List.range'_succ, scanAt, scan, calculated_bind,
      ← agree index close t hf here]
    rcases stepAt t index with stop | ⟨t', shown⟩
    · rfl
    · simp only [Functor.map, Except.map, bind, Except.bind, ih t']
      rcases scan step (view (index + 1) t') rest with fault | values <;> rfl

end Indicator
end Backtest
