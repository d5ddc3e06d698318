/-
Chains of steps that may fail. A chain has a result exactly when each of its steps has one; where
a list of steps has its results one for one, each belongs to a step and each step to a result. A
chain that has none ends in the error of the first step at fault. Where the errors of its steps are
described, each as what some stage finds, this is the error of the first stage that finds one
(`StopsAtFirst.bind`).
-/
namespace Backtest

theorem bind_eq_ok_iff {ε α β : Type} {x : Except ε α} {f : α → Except ε β} {b : β} :
    (x >>= f) = .ok b ↔ ∃ a, x = .ok a ∧ f a = .ok b := by
  rcases x with e | a
  · constructor
    · intro h; cases h
    · rintro ⟨a, h, -⟩; cases h
  · constructor
    · intro h; exact ⟨a, rfl, h⟩
    · rintro ⟨a', h, hb⟩; cases h; exact hb

theorem pure_eq_ok_iff {ε α : Type} {a b : α} : (pure a : Except ε α) = .ok b ↔ a = b := by
  constructor
  · intro h; cases h; rfl
  · rintro rfl; rfl

theorem bind_eq_error_iff {ε α β : Type} {x : Except ε α} {f : α → Except ε β} {e : ε} :
    (x >>= f) = .error e ↔ x = .error e ∨ ∃ a, x = .ok a ∧ f a = .error e := by
  rcases x with e' | a
  · constructor
    · intro h
      cases h
      exact .inl rfl
    · rintro (h | ⟨a, h, -⟩) <;> cases h
      rfl
  · constructor
    · intro h
      exact .inr ⟨a, rfl, h⟩
    · rintro (h | ⟨a', h, he⟩) <;> cases h
      exact he

/-- A chain does not end in an error in which none of its steps ends. -/
theorem bind_ne_error {ε α β : Type} {x : Except ε α} {f : α → Except ε β} {e : ε}
    (hx : x ≠ .error e) (hf : ∀ a, x = .ok a → f a ≠ .error e) : (x >>= f) ≠ .error e := by
  intro h
  rcases bind_eq_error_iff.1 h with he | ⟨a, ha, he⟩
  · exact hx he
  · exact hf a ha he

/-- Outcomes that are described come about. If there is always one, nothing else comes about. -/
theorem outcome_iff_of_described {ε α : Type} {x : Except ε α} {accepted : α → Prop}
    {refused : ε → Prop} (ok : ∀ {a}, accepted a → x = .ok a)
    (error : ∀ {e}, refused e → x = .error e) (described : (∃ a, accepted a) ∨ ∃ e, refused e) :
    (∀ a, x = .ok a ↔ accepted a) ∧ ∀ e, x = .error e ↔ refused e := by
  refine ⟨fun a => ⟨fun h => ?_, ok⟩, fun e => ⟨fun h => ?_, error⟩⟩
  · obtain ⟨b, hb⟩ | ⟨e, he⟩ := described
    · cases h.symm.trans (ok hb)
      exact hb
    · cases h.symm.trans (error he)
  · obtain ⟨a, ha⟩ | ⟨e', he⟩ := described
    · cases h.symm.trans (ok ha)
    · cases h.symm.trans (error he)
      exact he

/-- A chain of which some part of the result is known has a result. -/
theorem exists_of_toOption_map {ε α β : Type} {x : Except ε α} {f : α → β} {b : β}
    (h : x.toOption.map f = some b) : ∃ a, x = .ok a ∧ f a = b := by
  rcases x with e | a
  · cases h
  · exact ⟨a, rfl, Option.some.inj h⟩

section Lists

variable {ε α β : Type} {f : α → Except ε β} {xs : List α} {ys : List β}

theorem result_of_mem (h : xs.map f = ys.map .ok) {x : α} (hx : x ∈ xs) : ∃ y ∈ ys, f x = .ok y := by
  have mem := List.mem_map_of_mem (f := f) hx
  rw [h] at mem
  obtain ⟨y, hy, hf⟩ := List.mem_map.1 mem
  exact ⟨y, hy, hf.symm⟩

theorem step_of_mem (h : xs.map f = ys.map .ok) {y : β} (hy : y ∈ ys) : ∃ x ∈ xs, f x = .ok y := by
  have mem : (.ok y : Except ε β) ∈ ys.map .ok := List.mem_map_of_mem hy
  rw [← h] at mem
  exact List.mem_map.1 mem

/-- A list of steps has its results one for one. -/
theorem mapM_eq_ok_iff : ∀ {xs : List α} {ys : List β}, xs.mapM f = .ok ys ↔ xs.map f = ys.map .ok
  | [], ys => by
    rw [List.mapM_nil, pure_eq_ok_iff, List.map_nil]
    cases ys <;> simp
  | x :: xs, ys => by
    rw [List.mapM_cons, List.map_cons]
    simp only [bind_eq_ok_iff, pure_eq_ok_iff, mapM_eq_ok_iff]
    constructor
    · rintro ⟨y, hy, ys, hs, rfl⟩
      rw [List.map_cons, hy, hs]
    · intro h
      rcases ys with _ | ⟨y, ys⟩
      · cases h
      · rw [List.map_cons, List.cons.injEq] at h
        exact ⟨y, h.1, ys, h.2, rfl⟩

/-- A list of steps without results ends in the error of the first step at fault. -/
theorem exists_of_mapM_eq_error {e : ε} : ∀ {xs : List α}, xs.mapM f = .error e →
    ∃ (k : Nat) (x : α), xs[k]? = some x ∧ f x = .error e ∧
      ∀ i < k, ∀ y, xs[i]? = some y → ∃ b, f y = .ok b
  | [], h => by cases h
  | x :: xs, h => by
    rw [List.mapM_cons] at h
    cases first : f x with
    | error e' =>
      rw [first] at h
      cases h
      exact ⟨0, x, rfl, first, fun i hi => absurd hi (Nat.not_lt_zero i)⟩
    | ok b =>
      cases rest : xs.mapM f with
      | ok bs =>
        rw [first, rest] at h
        cases h
      | error e' =>
        rw [first, rest] at h
        cases h
        obtain ⟨k, x', hk, fault, before⟩ := exists_of_mapM_eq_error rest
        refine ⟨k + 1, x', hk, fault, fun i hi y hy => ?_⟩
        cases i with
        | zero =>
          cases hy
          exact ⟨b, first⟩
        | succ i => exact before i (Nat.lt_of_succ_lt_succ hi) y hy

/-- The same where each step is told its position. -/
theorem exists_of_mapM_zipIdx_eq_error {f : α × Nat → Except ε β} {e : ε}
    (h : xs.zipIdx.mapM f = .error e) :
    ∃ (k : Nat) (x : α), xs[k]? = some x ∧ f (x, k) = .error e ∧
      ∀ i < k, ∀ y, xs[i]? = some y → ∃ b, f (y, i) = .ok b := by
  have at_position (i : Nat) : xs.zipIdx[i]? = xs[i]?.map fun x => (x, i) := by
    rw [List.getElem?_zipIdx]
    simp
  obtain ⟨k, _, hk, fault, before⟩ := exists_of_mapM_eq_error h
  rw [at_position, Option.map_eq_some_iff] at hk
  obtain ⟨x, hx, rfl⟩ := hk
  refine ⟨k, x, hx, fault, fun i hi y hy => before i hi (y, i) ?_⟩
  rw [at_position, hy]
  rfl

end Lists

section Renaming

variable {ε ε' α β : Type} {x : Except ε α}

theorem map_eq_ok_iff {f : α → β} {b : β} : x.map f = .ok b ↔ ∃ a, x = .ok a ∧ f a = b := by
  cases x <;> simp [Except.map]

theorem map_eq_error_iff {f : α → β} {e : ε} : x.map f = .error e ↔ x = .error e := by
  cases x <;> simp [Except.map]

@[simp] theorem mapError_ok (f : ε → ε') (a : α) : (Except.ok a).mapError f = .ok a := rfl

@[simp] theorem mapError_error (f : ε → ε') (e : ε) :
    (Except.error e : Except ε α).mapError f = .error (f e) := rfl

theorem mapError_eq_ok_iff {f : ε → ε'} {a : α} : x.mapError f = .ok a ↔ x = .ok a := by
  cases x <;> simp

theorem mapError_eq_error_iff {f : ε → ε'} {e' : ε'} :
    x.mapError f = .error e' ↔ ∃ e, x = .error e ∧ f e = e' := by
  cases x <;> simp

theorem mapError_bind (f : ε → ε') (k : α → Except ε β) :
    (x >>= k).mapError f = x.mapError f >>= fun a => (k a).mapError f := by
  rcases x with e | a <;> rfl

end Renaming

/-! ## The first error -/

section First

variable {σ τ ε ε' α β : Type} {Finds : σ → ε → Prop} {x : Except ε α}
variable {stages later : List σ} {stage other : σ} {e : ε}

/-- The first of the stages that finds an error, and the error that it finds. -/
def FirstAt (Finds : σ → ε → Prop) (stages : List σ) (stage : σ) (e : ε) : Prop :=
  ∃ before after, stages = before ++ stage :: after ∧ Finds stage e ∧
    ∀ earlier ∈ before, ∀ e', ¬ Finds earlier e'

theorem FirstAt.finds (h : FirstAt Finds stages stage e) : Finds stage e := by
  obtain ⟨before, after, -, found, -⟩ := h
  exact found

theorem FirstAt.mem (h : FirstAt Finds stages stage e) : stage ∈ stages := by
  obtain ⟨before, after, rfl, -⟩ := h
  simp

@[simp] theorem not_firstAt_nil : ¬ FirstAt Finds [] stage e := by
  rintro ⟨before, after, parts, -⟩
  exact List.append_ne_nil_of_right_ne_nil before (List.cons_ne_nil stage after) parts.symm

theorem firstAt_cons_iff :
    FirstAt Finds (other :: stages) stage e ↔ stage = other ∧ Finds other e ∨
      (∀ e', ¬ Finds other e') ∧ FirstAt Finds stages stage e := by
  constructor
  · rintro ⟨_ | ⟨b, before⟩, after, parts, found, clean⟩
    · cases parts
      exact .inl ⟨rfl, found⟩
    · cases parts
      obtain ⟨passes, clean⟩ := List.forall_mem_cons.1 clean
      exact .inr ⟨passes, before, after, rfl, found, clean⟩
  · rintro (⟨rfl, found⟩ | ⟨passes, before, after, rfl, found, clean⟩)
    · exact ⟨[], stages, rfl, found, nofun⟩
    · exact ⟨other :: before, after, rfl, found, List.forall_mem_cons.2 ⟨passes, clean⟩⟩

theorem firstAt_append_iff : ∀ {stages : List σ},
    FirstAt Finds (stages ++ later) stage e ↔ FirstAt Finds stages stage e ∨
      (∀ s ∈ stages, ∀ e', ¬ Finds s e') ∧ FirstAt Finds later stage e
  | [] => by simp
  | s :: rest => by
    rw [List.cons_append, firstAt_cons_iff, firstAt_cons_iff, firstAt_append_iff,
      List.forall_mem_cons, and_or_left, or_assoc, and_assoc]

/-- If any stage finds an error, one is the first. -/
theorem exists_firstAt (found : Finds stage e) : ∀ {stages : List σ}, stage ∈ stages →
    ∃ s e', FirstAt Finds stages s e'
  | s :: rest, mem => by
    by_cases here : ∃ e', Finds s e'
    · obtain ⟨e', here⟩ := here
      exact ⟨s, e', firstAt_cons_iff.2 (.inl ⟨rfl, here⟩)⟩
    · rcases List.mem_cons.1 mem with rfl | mem
      · exact absurd ⟨e, found⟩ here
      · obtain ⟨s', e', first⟩ := exists_firstAt found mem
        exact ⟨s', e', firstAt_cons_iff.2 (.inr ⟨not_exists.1 here, first⟩)⟩

/-- The first of the stages is the same when stages and errors are given other names. -/
theorem exists_firstAt_map_iff {Finds' : τ → ε' → Prop} {g : σ → τ} {f : ε → ε'} {e' : ε'} :
    ∀ {stages : List σ}, (∀ s ∈ stages, ∀ e', Finds' (g s) e' ↔ ∃ e, Finds s e ∧ f e = e') →
      ((∃ t, FirstAt Finds' (stages.map g) t e') ↔ ∃ e, (∃ s, FirstAt Finds stages s e) ∧ f e = e')
  | [], _ => by simp
  | s :: rest, named => by
    obtain ⟨here, named⟩ := List.forall_mem_cons.1 named
    have passes : (∀ e', ¬ Finds' (g s) e') ↔ ∀ e, ¬ Finds s e := by
      simp only [here, not_exists, not_and]
      exact ⟨fun h e found => h _ e found rfl, fun h _ e found _ => h e found⟩
    simp only [List.map_cons, firstAt_cons_iff, exists_or, exists_eq_left, exists_and_left,
      or_and_right, and_assoc]
    rw [here, passes, exists_firstAt_map_iff named]

/-- A chain ends in the error of the first stage that finds one, if any does. -/
def StopsAtFirst (Finds : σ → ε → Prop) (stages : List σ) (x : Except ε α) : Prop :=
  ∀ e, x = .error e ↔ ∃ stage, FirstAt Finds stages stage e

namespace StopsAtFirst

theorem nil (a : α) : StopsAtFirst Finds [] (.ok a) := fun e => by simp

theorem single (h : ∀ e, x = .error e ↔ Finds stage e) : StopsAtFirst Finds [stage] x := by
  intro e
  simp [h, firstAt_cons_iff]

theorem not_finds {a : α} (h : StopsAtFirst Finds stages (.ok a)) :
    ∀ s ∈ stages, ∀ e, ¬ Finds s e := by
  intro s mem e found
  obtain ⟨s', e', first⟩ := exists_firstAt found mem
  cases (h e').2 ⟨s', first⟩

/-- The rest of a chain, with the stages after those of its first part, only counts where the first
part has a result. -/
theorem bind {f : α → Except ε β} (stages later : List σ) (hx : StopsAtFirst Finds stages x)
    (hf : ∀ a, x = .ok a → StopsAtFirst Finds later (f a)) :
    StopsAtFirst Finds (stages ++ later) (x >>= f) := by
  intro e
  simp only [firstAt_append_iff, exists_or, exists_and_left]
  rw [bind_eq_error_iff]
  refine or_congr (hx e) ⟨?_, ?_⟩
  · rintro ⟨a, rfl, h⟩
    exact ⟨hx.not_finds, (hf a rfl e).1 h⟩
  · rintro ⟨passes, first⟩
    cases x with
    | error e' =>
      obtain ⟨s, first⟩ := (hx e').1 rfl
      exact absurd first.finds (passes s first.mem e')
    | ok a => exact ⟨a, rfl, (hf a rfl e).2 first⟩

/-- The same errors of the same stages, both by other names. -/
theorem map {Finds' : τ → ε' → Prop} {g : σ → τ} {f : ε → ε'} (h : StopsAtFirst Finds stages x)
    (named : ∀ s ∈ stages, ∀ e', Finds' (g s) e' ↔ ∃ e, Finds s e ∧ f e = e') :
    StopsAtFirst Finds' (stages.map g) (x.mapError f) := by
  intro e'
  rw [mapError_eq_error_iff, exists_firstAt_map_iff named]
  exact exists_congr fun e => and_congr_left' (h e)

end StopsAtFirst
end First

end Backtest
