/-
Bars in the order of their times. Instants are in a total order, and sorting bars by it keeps those
of one time in the order in which they came (`InOrder`). There is only one list in order with given
bars, so when no two bars have the same time it does not matter how they came.
-/
import Backtest.Series.Basic
import Mathlib.Data.List.Basic
import Mathlib.Data.List.Pairwise
import Mathlib.Tactic.Common

namespace Backtest

/-! ## Instants -/

namespace Instant

variable {a b c : Instant}

theorem le_iff : a ≤ b ↔
    a.second < b.second ∨ (a.second = b.second ∧ a.nanosecond ≤ b.nanosecond) := by
  show ¬ b < a ↔ _
  rw [lt_iff]
  omega

theorem le_trans (h : a ≤ b) (h' : b ≤ c) : a ≤ c := by
  rw [le_iff] at *
  omega

theorem le_total (a b : Instant) : a ≤ b ∨ b ≤ a := by
  rw [le_iff, le_iff]
  omega

theorem le_antisymm (h : a ≤ b) (h' : b ≤ a) : a = b := by
  rw [le_iff] at *
  obtain ⟨second, nanosecond⟩ := a
  obtain ⟨second', nanosecond'⟩ := b
  simp only [mk.injEq] at *
  omega

end Instant

/-! ## Lists of bars -/

/-- The bars are put in the order of their times, each as often as it is there, and those of one
time as they came. -/
structure InOrder (bars ordered : List Bar) : Prop where
  perm : ordered.Perm bars
  ascending : ordered.Pairwise fun a b => a.time ≤ b.time
  stable : ∀ time, ordered.filter (·.time = time) = bars.filter (·.time = time)

/-- Lists in the order of time with the same bars at each time are the same. -/
theorem eq_of_filter_time : ∀ {xs ys : List Bar}, xs.Pairwise (fun a b => a.time ≤ b.time) →
    ys.Pairwise (fun a b => a.time ≤ b.time) →
    (∀ time, xs.filter (·.time = time) = ys.filter (·.time = time)) → xs = ys
  | [], [], _, _, _ => rfl
  | [], y :: ys, _, _, same => by simpa using same y.time
  | x :: xs, [], _, _, same => by simpa using same x.time
  | x :: xs, y :: ys, hx, hy, same => by
    have mem : ∀ z, z ∈ x :: xs ↔ z ∈ y :: ys := by
      intro z
      have := congrArg (z ∈ ·) (same z.time)
      simpa using this
    -- each head is somewhere in the other list, so neither is later than the other
    have le : x.time ≤ y.time := by
      rcases List.mem_cons.1 ((mem y).2 (List.mem_cons_self ..)) with rfl | hm
      · exact Instant.le_iff.2 (by omega)
      · exact (List.pairwise_cons.1 hx).1 y hm
    have ge : y.time ≤ x.time := by
      rcases List.mem_cons.1 ((mem x).1 (List.mem_cons_self ..)) with rfl | hm
      · exact Instant.le_iff.2 (by omega)
      · exact (List.pairwise_cons.1 hy).1 x hm
    have time : y.time = x.time := Instant.le_antisymm ge le
    have heads := same x.time
    simp only [List.filter_cons, time, decide_true, if_true, List.cons.injEq] at heads
    obtain ⟨rfl, -⟩ := heads
    congr 1
    refine eq_of_filter_time (List.pairwise_cons.1 hx).2 (List.pairwise_cons.1 hy).2 fun t => ?_
    have tails := same t
    by_cases ht : x.time = t
    · simpa [List.filter_cons, ht] using tails
    · simpa [List.filter_cons, ht] using tails

theorem InOrder.unique {bars ordered ordered' : List Bar} (h : InOrder bars ordered)
    (h' : InOrder bars ordered') : ordered = ordered' :=
  eq_of_filter_time h.ascending h'.ascending fun time => (h.stable time).trans (h'.stable time).symm

/-- Leaving out bars keeps the order of the others. -/
theorem InOrder.filter {bars ordered : List Bar} (h : InOrder bars ordered) (p : Bar → Bool) :
    InOrder (bars.filter p) (ordered.filter p) := by
  refine ⟨h.perm.filter p, h.ascending.filter p, fun time => ?_⟩
  rw [List.filter_comm, h.stable time, List.filter_comm]

/-- When no two bars have the same time, the order does not depend on how they came. -/
theorem InOrder.of_perm {bars bars' ordered : List Bar} (h : InOrder bars ordered)
    (perm : bars'.Perm bars) (distinct : bars.Pairwise fun a b => a.time ≠ b.time) :
    InOrder bars' ordered := by
  refine ⟨h.perm.trans perm.symm, h.ascending, fun time => ?_⟩
  rw [h.stable time]
  have same := perm.filter (fun b => decide (b.time = time))
  -- at most one bar has the time
  rcases hf : bars.filter (·.time = time) with _ | ⟨a, _ | ⟨b, rest⟩⟩
  · rw [hf] at same ⊢
    exact same.eq_nil.symm
  · rw [hf] at same ⊢
    exact (List.perm_singleton.1 same).symm
  · have twice : (bars.filter (·.time = time)).Pairwise fun a b => a.time ≠ b.time :=
      distinct.filter _
    rw [hf] at twice
    have ha : a ∈ bars.filter (·.time = time) := by simp [hf]
    have hb : b ∈ bars.filter (·.time = time) := by simp [hf]
    have ta : a.time = time := by simpa using (List.mem_filter.1 ha).2
    have tb : b.time = time := by simpa using (List.mem_filter.1 hb).2
    exact absurd (ta.trans tb.symm) ((List.pairwise_cons.1 twice).1 b (List.mem_cons_self ..))

/-- Sorting puts the bars in order. -/
theorem inOrder_mergeSort (bars : List Bar) :
    InOrder bars (bars.mergeSort fun a b => decide (a.time ≤ b.time)) := by
  have trans : ∀ a b c : Bar, decide (a.time ≤ b.time) = true → decide (b.time ≤ c.time) = true →
      decide (a.time ≤ c.time) = true := by
    intro a b c h h'
    exact decide_eq_true (Instant.le_trans (of_decide_eq_true h) (of_decide_eq_true h'))
  have total : ∀ a b : Bar, (decide (a.time ≤ b.time) || decide (b.time ≤ a.time)) = true := by
    intro a b
    simpa using Instant.le_total a.time b.time
  have perm := List.mergeSort_perm bars fun a b => decide (a.time ≤ b.time)
  refine ⟨perm, ?_, fun time => ?_⟩
  · exact (List.pairwise_mergeSort trans total bars).imp of_decide_eq_true
  · -- the bars of one time are in order already, so sorting finds them as they are
    have equal : (bars.filter (·.time = time)).Pairwise
        fun a b => decide (a.time ≤ b.time) = true := by
      refine List.pairwise_of_forall_mem_list fun a ha b hb => ?_
      have ta : a.time = time := by simpa using (List.mem_filter.1 ha).2
      have tb : b.time = time := by simpa using (List.mem_filter.1 hb).2
      rw [ta, tb]
      exact decide_eq_true (Instant.le_iff.2 (by omega))
    have sub := (List.sublist_mergeSort trans total equal List.filter_sublist).filter
      (fun b => decide (b.time = time))
    rw [List.filter_filter] at sub
    simp only [Bool.and_self] at sub
    exact (sub.eq_of_length (perm.filter _).length_eq.symm).symm

end Backtest
