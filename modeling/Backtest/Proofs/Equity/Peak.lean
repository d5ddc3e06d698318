/-
The drawdown position by position. Up to each position of a curve there is a peak, the largest value
so far, and below a positive peak the value falls by some part of it: the difference of the two over
the peak, both rounded (`FallAt`). The drawdown is the largest of these falls, and zero where no
peak is positive (`WorstFall`). The loop keeps this of the values so far: one more value has a fall
of its own, and changes neither the peaks nor the falls before it (`WorstFall.concat`).
-/
import Backtest.Proofs.Equity.Drawdown
import Mathlib.Data.List.Chain

namespace Backtest

instance Decimal.transLe : Trans (fun a b : Decimal => a ≤ b) (fun a b : Decimal => a ≤ b)
    (fun a b : Decimal => a ≤ b) :=
  ⟨fun h h' => Decimal.le_iff.2 ((Decimal.le_iff.1 h).trans (Decimal.le_iff.1 h'))⟩

/-- The largest of some values. -/
structure IsPeak (values : List Decimal) (peak : Decimal) : Prop where
  mem : peak ∈ values
  le : ∀ equity ∈ values, equity ≤ peak

/-- The part of the peak so far, if that is positive, by which the value at a position is below
it. -/
def FallAt (curve : List Decimal) (j : ℕ) (fall : Decimal) : Prop :=
  ∃ peak equity gap, IsPeak (curve.take (j + 1)) peak ∧ peak.IsPositive ∧ curve[j]? = some equity ∧
    peak.sub equity = .ok gap ∧ gap.div peak = .ok fall

/-- The largest fall of a curve: each position with a positive peak has a fall, which is no larger,
and one of them has one as large; or there is no such position, and it is zero. -/
structure WorstFall (curve : List Decimal) (depth : Decimal) : Prop where
  falls : ∀ j peak, j < curve.length → IsPeak (curve.take (j + 1)) peak → peak.IsPositive →
    ∃ fall, FallAt curve j fall ∧ fall ≤ depth
  reached : (∃ j fall, FallAt curve j fall ∧ fall.toRat = depth.toRat) ∨
    (∀ j peak, IsPeak (curve.take (j + 1)) peak → ¬ peak.IsPositive) ∧ depth.toRat = 0

/-! ## Peaks and falls -/

section Falls

variable {values seen : List Decimal} {peak peak' equity fall : Decimal} {j : ℕ}

/-- Peaks of the same values have one value. -/
theorem IsPeak.toRat_eq (h : IsPeak values peak) (h' : IsPeak values peak') :
    peak.toRat = peak'.toRat :=
  le_antisymm (Decimal.le_iff.1 (h'.le peak h.mem)) (Decimal.le_iff.1 (h.le peak' h'.mem))

theorem isPeak_singleton (equity : Decimal) : IsPeak [equity] equity := by
  refine ⟨List.mem_singleton_self equity, fun e he => ?_⟩
  rw [List.mem_singleton.1 he]
  exact Decimal.le_iff.2 le_rfl

theorem IsPeak.concat (h : IsPeak seen peak) (equity : Decimal) :
    IsPeak (seen ++ [equity]) (max equity peak) := by
  have le : ∀ e ∈ seen ++ [equity], e ≤ max equity peak := by
    intro e he
    rcases List.mem_append.1 he with he | he
    · have below := Decimal.le_iff.1 (h.le e he)
      exact Decimal.le_iff.2 (below.trans (Decimal.le_iff.1 (Decimal.le_max_right equity peak)))
    · rw [List.mem_singleton.1 he]
      exact Decimal.le_max_left equity peak
  refine ⟨?_, le⟩
  by_cases hlt : peak < equity
  · rw [Decimal.max_of_lt hlt]
    exact List.mem_append_right seen (List.mem_singleton_self equity)
  · rw [Decimal.max_of_le (Decimal.not_lt_iff.1 hlt)]
    exact List.mem_append_left _ h.mem

theorem take_succ_concat (hj : j < seen.length) (equity : Decimal) :
    (seen ++ [equity]).take (j + 1) = seen.take (j + 1) :=
  List.take_append_of_le_length hj

theorem take_succ_concat_self (hj : seen.length ≤ j) (equity : Decimal) :
    (seen ++ [equity]).take (j + 1) = seen ++ [equity] :=
  List.take_of_length_le (by rw [List.length_append, List.length_singleton]; omega)

theorem FallAt.lt_length (h : FallAt values j fall) : j < values.length := by
  obtain ⟨_, _, _, -, -, here, -⟩ := h
  exact (List.getElem?_eq_some_iff.1 here).1

/-- A fall stays what it is with one more value. -/
theorem FallAt.concat (h : FallAt seen j fall) (equity : Decimal) :
    FallAt (seen ++ [equity]) j fall := by
  have hj := h.lt_length
  unfold FallAt at h ⊢
  rw [take_succ_concat hj, List.getElem?_append_left hj]
  exact h

/-- Below a positive peak, `fallBelow` is the fall of the last value. -/
theorem fallAt_concat_self (hp : IsPeak (seen ++ [equity]) peak) (positive : peak.IsPositive)
    (hf : fallBelow peak equity = .ok fall) : FallAt (seen ++ [equity]) seen.length fall := by
  unfold fallBelow at hf
  rw [if_pos positive] at hf
  obtain ⟨gap, hg, hd⟩ := bind_eq_ok_iff.1 hf
  refine ⟨peak, equity, gap, ?_, positive, List.getElem?_concat_length, hg, hd⟩
  rw [take_succ_concat_self le_rfl]
  exact hp

end Falls

/-! ## One value -/

section Step

variable {seen : List Decimal} {peak equity fall worst : Decimal}

theorem worstFall_nil : WorstFall [] .zero := by
  refine ⟨fun j peak hj => absurd hj (Nat.not_lt_zero j), .inr ⟨fun j peak hp => ?_, ?_⟩⟩
  · exact absurd hp.mem (by rw [List.take_nil]; exact List.not_mem_nil)
  · exact Decimal.toRat_zero

/-- The worst fall with one more value is that of its own fall and the worst so far. -/
theorem WorstFall.concat (h : WorstFall seen worst) (hw : 0 ≤ worst.toRat)
    (hp : IsPeak (seen ++ [equity]) peak) (hf : fallBelow peak equity = .ok fall)
    (nonneg : 0 ≤ fall.toRat) : WorstFall (seen ++ [equity]) (max fall worst) := by
  have value : (max fall worst).toRat = max fall.toRat worst.toRat := Decimal.toRat_max fall worst
  -- the peak of all values is positive only if `peak` is
  have same {peak' : Decimal} (hp' : IsPeak (seen ++ [equity]) peak')
      (positive : peak'.IsPositive) : peak.IsPositive := by
    rw [Decimal.isPositive_iff, hp.toRat_eq hp']
    exact Decimal.isPositive_iff.1 positive
  constructor
  · intro j peak' hj hp' positive
    rcases Nat.lt_or_ge j seen.length with before | last
    · rw [take_succ_concat before] at hp'
      obtain ⟨fall', here, le⟩ := h.falls j peak' before hp' positive
      refine ⟨fall', here.concat equity, Decimal.le_iff.2 ?_⟩
      exact (Decimal.le_iff.1 le).trans (Decimal.le_iff.1 (Decimal.le_max_right fall worst))
    · rw [take_succ_concat_self last] at hp'
      rw [List.length_append, List.length_singleton] at hj
      have here := fallAt_concat_self hp (same hp' positive) hf
      rw [show j = seen.length by omega]
      exact ⟨fall, here, Decimal.le_max_left fall worst⟩
  · by_cases positive : peak.IsPositive
    · have here := fallAt_concat_self hp positive hf
      rcases h.reached with ⟨j, fall', before, reached⟩ | ⟨-, none⟩
      · rcases le_total fall.toRat worst.toRat with hle | hle
        · exact .inl ⟨j, fall', before.concat equity, by rw [value, max_eq_right hle, reached]⟩
        · exact .inl ⟨seen.length, fall, here, by rw [value, max_eq_left hle]⟩
      · exact .inl ⟨seen.length, fall, here, by rw [value, none, max_eq_left nonneg]⟩
    · -- no value is positive, so there is no fall at all
      have zero : fall.toRat = 0 := by
        unfold fallBelow at hf
        rw [if_neg positive] at hf
        cases hf
        exact Decimal.toRat_zero
      rw [value, zero, max_eq_right hw]
      rcases h.reached with ⟨j, fall', before, reached⟩ | ⟨flat, none⟩
      · exact .inl ⟨j, fall', before.concat equity, reached⟩
      · refine .inr ⟨fun j peak' hp' => ?_, none⟩
        rcases Nat.lt_or_ge j seen.length with before | last
        · rw [take_succ_concat before] at hp'
          exact flat j peak' hp'
        · rw [take_succ_concat_self last] at hp'
          exact fun positive' => positive (same hp' positive')

end Step

/-! ## All values -/

section Curves

variable {curve : List Decimal} {depth : Decimal}

/-- From the peak and the worst fall of the values so far the loop goes on to the worst of all. -/
theorem exists_drawdownFrom_worstFall : ∀ (rest : List Decimal) {seen : List Decimal}
    {peak worst : Decimal}, IsPeak seen peak → 0 ≤ worst.toRat → WorstFall seen worst →
    (∀ equity ∈ rest, 0 ≤ equity.toRat) →
    ∃ depth, drawdownFrom peak worst rest = .ok depth ∧ WorstFall (seen ++ rest) depth
  | [], seen, peak, worst, _, _, h, _ => ⟨worst, rfl, by rwa [List.append_nil]⟩
  | equity :: rest, seen, peak, worst, hp, hw, h, hn => by
    obtain ⟨first, later⟩ := List.forall_mem_cons.1 hn
    obtain ⟨fall, hf, nonneg, -⟩ := exists_fallBelow first (Decimal.le_max_left equity peak)
    have hw' : 0 ≤ (max fall worst).toRat := hw.trans (Decimal.le_max_right fall worst)
    obtain ⟨depth, hd, worstFall⟩ := exists_drawdownFrom_worstFall rest (hp.concat equity) hw'
      (h.concat hw (hp.concat equity) hf nonneg) later
    rw [List.append_assoc] at worstFall
    refine ⟨depth, ?_, worstFall⟩
    rw [drawdownFrom_cons hw, hf]
    exact hd

theorem exists_drawdown_worstFall (hn : ∀ equity ∈ curve, 0 ≤ equity.toRat) :
    ∃ depth, drawdown curve = .ok depth ∧ WorstFall curve depth := by
  rcases curve with _ | ⟨first, rest⟩
  · exact ⟨.zero, rfl, worstFall_nil⟩
  · obtain ⟨here, later⟩ := List.forall_mem_cons.1 hn
    have zero : 0 ≤ Decimal.zero.toRat := Decimal.toRat_zero.ge
    obtain ⟨fall, hf, nonneg, -⟩ := exists_fallBelow here (Decimal.le_iff.2 (le_refl first.toRat))
    have start : WorstFall [first] (max fall .zero) :=
      worstFall_nil.concat zero (isPeak_singleton first) hf nonneg
    obtain ⟨depth, hd, worstFall⟩ := exists_drawdownFrom_worstFall rest (isPeak_singleton first)
      (zero.trans (Decimal.le_max_right fall .zero)) start later
    refine ⟨depth, ?_, worstFall⟩
    -- the first value is its own peak
    change drawdownFrom first .zero (first :: rest) = _
    rw [drawdownFrom_cons zero, Decimal.max_of_le (Decimal.le_iff.2 (le_refl first.toRat)), hf]
    exact hd

/-- Values that never decrease do not fall below the peak so far, which is the last of them. -/
theorem FallAt.toRat_eq_zero {j : ℕ} {fall : Decimal} (h : FallAt curve j fall)
    (rises : curve.IsChain (· ≤ ·)) : fall.toRat = 0 := by
  obtain ⟨peak, equity, gap, hp, positive, here, hg, hd⟩ := h
  have sorted : (curve.take (j + 1)).Pairwise (· ≤ ·) :=
    (List.isChain_iff_pairwise.1 rises).sublist (List.take_sublist _ _)
  have values : curve.take (j + 1) = curve.take j ++ [equity] := by
    rw [List.take_add_one, here]
    rfl
  rw [values] at hp sorted
  have le : peak ≤ equity := by
    rcases List.mem_append.1 hp.mem with before | last
    · exact (List.pairwise_append.1 sorted).2.2 peak before equity (List.mem_singleton_self equity)
    · rw [List.mem_singleton.1 last]
      exact Decimal.le_iff.2 le_rfl
  have ge := hp.le equity (List.mem_append_right _ (List.mem_singleton_self equity))
  have same : peak.toRat = equity.toRat := le_antisymm (Decimal.le_iff.1 le) (Decimal.le_iff.1 ge)
  cases (Decimal.sub_of_toRat_eq same).symm.trans hg
  cases (Decimal.div_of_toRat_eq_zero Decimal.toRat_fullZero positive).symm.trans hd
  exact Decimal.toRat_fullZero

/-- A curve that is never below zero has a drawdown: the largest fall below the peak so far. It is a
part of that peak, none if the values never decrease, and never less once more values follow. -/
theorem drawdown_is_worst_fall (hn : ∀ equity ∈ curve, .zero ≤ equity) :
    ∃ depth, drawdown curve = .ok depth ∧ WorstFall curve depth ∧
      (.zero ≤ depth ∧ depth ≤ .one) ∧
      (curve.IsChain (· ≤ ·) → depth.toRat = 0) ∧
      ∀ later, (∀ equity ∈ later, .zero ≤ equity) →
        ∃ depth', drawdown (curve ++ later) = .ok depth' ∧ depth ≤ depth' := by
  simp only [Decimal.le_iff, Decimal.toRat_zero, Decimal.toRat_one] at hn ⊢
  obtain ⟨depth, hd, worstFall⟩ := exists_drawdown_worstFall hn
  refine ⟨depth, hd, worstFall, drawdown_mem_unit hn hd, fun rises => ?_, fun later hl => ?_⟩
  · rcases worstFall.reached with ⟨j, fall, here, reached⟩ | ⟨-, none⟩
    · rw [← reached]
      exact here.toRat_eq_zero rises
    · exact none
  · obtain ⟨depth', hd', -⟩ := exists_drawdown (List.forall_mem_append.2 ⟨hn, hl⟩)
    exact ⟨depth', hd', Decimal.le_iff.1 (drawdown_le_append hd hd')⟩

/-- A curve that starts at zero, with a peak that comes twice and values below it after each. -/
theorem drawdown_of_two_peaks :
    let curve : List Decimal := [.zero, ⟨false, 12, 1, by decide, by decide⟩,
      ⟨false, 9, 1, by decide, by decide⟩, ⟨false, 120, 2, by decide, by decide⟩, .one]
    (∀ equity ∈ curve, .zero ≤ equity) ∧
      ∃ depth, drawdown curve = .ok depth ∧ depth.toRat = 1 / 4 ∧ WorstFall curve depth ∧
        (.zero ≤ depth ∧ depth ≤ .one) ∧
        (curve.IsChain (· ≤ ·) → depth.toRat = 0) ∧
        ∀ later, (∀ equity ∈ later, .zero ≤ equity) →
          ∃ depth', drawdown (curve ++ later) = .ok depth' ∧ depth ≤ depth' := by
  intro curve
  have nonneg : ∀ equity ∈ curve, .zero ≤ equity := by decide +kernel
  have outcome : (drawdown curve).toOption.map Decimal.toRat = some (1 / 4) := by decide +kernel
  obtain ⟨depth, hd, quarter⟩ := exists_of_toOption_map outcome
  obtain ⟨depth', hd', worst⟩ := drawdown_is_worst_fall nonneg
  cases hd.symm.trans hd'
  exact ⟨nonneg, depth, hd, quarter, worst⟩

end Curves
end Backtest
