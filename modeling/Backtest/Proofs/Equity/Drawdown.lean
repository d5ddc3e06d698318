/-
The drawdown value by value. Each value falls below the running peak, the largest value so far, by
some part of it (`fallBelow`), and the drawdown is the largest of these falls: `drawdownFrom_cons`
says so of one value, a new peak among them, and the rest is derived from it. A curve above zero has a
drawdown, which is a part of its peak. It never decreases as a curve goes on (`drawdown_le_append`),
and does not change while the last value stays (`drawdown_append_replicate`).
-/
import Backtest.Equity.Drawdown
import Backtest.Proofs.Chain
import Backtest.Proofs.Decimal.Zero

namespace Backtest

/-- The fall of a value below the peak so far, as a part of the peak; none below a peak that is not
above zero. -/
def fallBelow (peak equity : Decimal) : Except Fault Decimal :=
  if peak.IsPositive then do
    let gap ← peak.sub equity
    gap.div peak
  else .ok .zero

/-- The running peak after some more values. -/
def peakAfter (peak : Decimal) (values : List Decimal) : Decimal :=
  values.foldl (fun peak equity => max equity peak) peak

/-! ## One value -/

section Step

variable {peak equity worst fall depth : Decimal}

/-- A new peak does not fall below itself. -/
theorem fallBelow_self (equity : Decimal) :
    ∃ fall, fallBelow equity equity = .ok fall ∧ fall.toRat = 0 := by
  unfold fallBelow
  split
  · next positive =>
    rw [Decimal.sub_of_toRat_eq rfl]
    exact ⟨.fullZero, Decimal.div_of_toRat_eq_zero Decimal.toRat_fullZero positive,
      Decimal.toRat_fullZero⟩
  · exact ⟨.zero, rfl, Decimal.toRat_zero⟩

/-- One value moves the running peak, and its fall below that may be the worst so far. -/
theorem drawdownFrom_cons (hw : 0 ≤ worst.toRat) (rest : List Decimal) :
    drawdownFrom peak worst (equity :: rest) = (fallBelow (max equity peak) equity >>= fun fall =>
      drawdownFrom (max equity peak) (max fall worst) rest) := by
  rw [drawdownFrom]
  by_cases hlt : peak < equity
  · obtain ⟨fall, hf, still⟩ := fallBelow_self equity
    -- a new peak skips the fall, which would be none
    have kept : max fall worst = worst :=
      Decimal.max_of_le (by rw [Decimal.le_iff, still]; exact hw)
    rw [if_pos hlt, Decimal.max_of_lt hlt, hf]
    simp only [bind, Except.bind, kept]
  · have worse (fall : Decimal) : (if worst < fall then fall else worst) = max fall worst := by
      split
      · next h => rw [Decimal.max_of_lt h]
      · next h => rw [Decimal.max_of_le (Decimal.not_lt_iff.1 h)]
    rw [if_neg hlt, Decimal.max_of_le (Decimal.not_lt_iff.1 hlt)]
    unfold fallBelow
    split
    · simp only [bind_assoc, worse]
    · have kept : max Decimal.zero worst = worst :=
        Decimal.max_of_le (by rw [Decimal.le_iff, Decimal.toRat_zero]; exact hw)
      simp only [bind, Except.bind, kept]

/-- A value between zero and the peak falls below it, by all of it at most. -/
theorem exists_fallBelow (he : 0 ≤ equity.toRat) (hle : equity ≤ peak) :
    ∃ fall, fallBelow peak equity = .ok fall ∧ 0 ≤ fall.toRat ∧ fall.toRat ≤ 1 := by
  have hle := Decimal.le_iff.1 hle
  unfold fallBelow
  split
  · next positive =>
    have peak_pos := Decimal.isPositive_iff.1 positive
    obtain ⟨gap, hg⟩ := Decimal.exists_nearest?_of_le (b := peak)
      (by linarith : 0 ≤ peak.toRat - equity.toRat) (by linarith)
    have gap_nonneg := Decimal.nonneg_of_nearest? hg (by linarith)
    have gap_le := Decimal.toRat_le_of_nearest? (b := peak) hg (by linarith)
    have part_nonneg := div_nonneg gap_nonneg peak_pos.le
    have part_le := div_le_one_of_le₀ gap_le peak_pos.le
    obtain ⟨fall, hf⟩ := Decimal.exists_nearest?_of_le (b := .one) part_nonneg
      (by rw [Decimal.toRat_one]; exact part_le)
    refine ⟨fall, bind_eq_ok_iff.2 ⟨gap, Decimal.sub_eq_ok_iff.2 hg, ?_⟩,
      Decimal.nonneg_of_nearest? hf part_nonneg, Decimal.le_one_of_nearest? hf part_le⟩
    exact Decimal.div_eq_ok_iff.2 ⟨fun e => peak_pos.ne' (Decimal.magnitude_eq_zero_iff.1 e), hf⟩
  · refine ⟨.zero, rfl, ?_⟩
    rw [Decimal.toRat_zero]
    norm_num

end Step

/-! ## Several values -/

section Values

variable {peak worst depth : Decimal}

/-- The worst fall so far is never forgotten. -/
theorem worst_le_of_drawdownFrom : ∀ (values : List Decimal) {peak worst : Decimal},
    0 ≤ worst.toRat → drawdownFrom peak worst values = .ok depth → worst ≤ depth
  | [], _, _, _, h => by
    cases h
    exact Decimal.le_iff.2 le_rfl
  | equity :: rest, peak, worst, hw, h => by
    rw [drawdownFrom_cons hw] at h
    obtain ⟨fall, -, h⟩ := bind_eq_ok_iff.1 h
    have le := Decimal.le_iff.1 (Decimal.le_max_right fall worst)
    exact Decimal.le_iff.2 (le.trans (Decimal.le_iff.1 (worst_le_of_drawdownFrom rest (hw.trans le) h)))

/-- Over two parts of a curve, the second goes on from the peak and the worst fall of the first. -/
theorem drawdownFrom_append (ys : List Decimal) : ∀ (xs : List Decimal) {peak worst : Decimal},
    0 ≤ worst.toRat → drawdownFrom peak worst (xs ++ ys) =
      (drawdownFrom peak worst xs >>= fun depth => drawdownFrom (peakAfter peak xs) depth ys)
  | [], _, _, _ => rfl
  | equity :: rest, peak, worst, hw => by
    rw [List.cons_append, drawdownFrom_cons hw, drawdownFrom_cons hw, bind_assoc]
    refine congrArg _ (funext fun fall => ?_)
    exact drawdownFrom_append ys rest (hw.trans (Decimal.le_max_right fall worst))

/-- A value that stays after its fall is known adds nothing. -/
theorem drawdownFrom_replicate {equity fall : Decimal} (hw : 0 ≤ worst.toRat) (he : equity ≤ peak)
    (hf : fallBelow peak equity = .ok fall) (hle : fall ≤ worst) : ∀ n : Nat,
    drawdownFrom peak worst (List.replicate n equity) = .ok worst
  | 0 => rfl
  | n + 1 => by
    rw [List.replicate_succ, drawdownFrom_cons hw, Decimal.max_of_le he, hf]
    simp only [bind, Except.bind, Decimal.max_of_le hle]
    exact drawdownFrom_replicate hw he hf hle n

/-- Values above zero have a worst fall, which is a part of the peak. -/
theorem exists_drawdownFrom : ∀ (values : List Decimal) {peak worst : Decimal},
    (∀ equity ∈ values, 0 ≤ equity.toRat) → 0 ≤ worst.toRat → worst.toRat ≤ 1 →
    ∃ depth, drawdownFrom peak worst values = .ok depth ∧ 0 ≤ depth.toRat ∧ depth.toRat ≤ 1
  | [], _, worst, _, hw, hw' => ⟨worst, rfl, hw, hw'⟩
  | equity :: rest, peak, worst, hn, hw, hw' => by
    obtain ⟨first, later⟩ := List.forall_mem_cons.1 hn
    obtain ⟨fall, hf, -, fall_le⟩ := exists_fallBelow first (Decimal.le_max_left equity peak)
    have worse : (max fall worst).toRat ≤ 1 := by
      rw [Decimal.toRat_max]
      exact max_le fall_le hw'
    rw [drawdownFrom_cons hw, hf]
    exact exists_drawdownFrom rest later (hw.trans (Decimal.le_max_right fall worst)) worse

end Values

/-! ## Curves -/

section Curves

variable {xs ys curve : List Decimal} {depth depth' : Decimal}

/-- A curve above zero has a drawdown, which is a part of its peak. -/
theorem exists_drawdown (hn : ∀ equity ∈ curve, 0 ≤ equity.toRat) :
    ∃ depth, drawdown curve = .ok depth ∧ 0 ≤ depth.toRat ∧ depth.toRat ≤ 1 := by
  have zero : 0 ≤ Decimal.zero.toRat ∧ Decimal.zero.toRat ≤ 1 := by
    rw [Decimal.toRat_zero]
    norm_num
  cases curve with
  | nil => exact ⟨.zero, rfl, zero⟩
  | cons first rest => exact exists_drawdownFrom (first :: rest) hn zero.1 zero.2

theorem drawdown_mem_unit (hn : ∀ equity ∈ curve, 0 ≤ equity.toRat)
    (h : drawdown curve = .ok depth) : 0 ≤ depth.toRat ∧ depth.toRat ≤ 1 := by
  obtain ⟨depth', h', bounds⟩ := exists_drawdown hn
  cases h.symm.trans h'
  exact bounds

theorem drawdown_nonneg (h : drawdown curve = .ok depth) : .zero ≤ depth := by
  cases curve with
  | nil =>
    cases h
    exact Decimal.le_iff.2 le_rfl
  | cons first rest =>
    exact worst_le_of_drawdownFrom (first :: rest) (Decimal.toRat_zero).ge h

/-- The peak starts at the first value, however a curve goes on. -/
theorem exists_drawdown_eq (hx : xs ≠ []) :
    ∃ first, ∀ ys, drawdown (xs ++ ys) = drawdownFrom first .zero (xs ++ ys) := by
  rcases xs with _ | ⟨first, rest⟩
  · exact absurd rfl hx
  · exact ⟨first, fun _ => rfl⟩

/-- The drawdown never decreases as a curve goes on. -/
theorem drawdown_le_append (h : drawdown xs = .ok depth) (h' : drawdown (xs ++ ys) = .ok depth') :
    depth ≤ depth' := by
  by_cases hx : xs = []
  · subst hx
    cases h
    exact drawdown_nonneg h'
  · obtain ⟨first, start⟩ := exists_drawdown_eq hx
    have zero : 0 ≤ Decimal.zero.toRat := Decimal.toRat_zero.ge
    rw [← List.append_nil xs, start, List.append_nil] at h
    rw [start, drawdownFrom_append ys xs zero, h] at h'
    exact worst_le_of_drawdownFrom ys (zero.trans (worst_le_of_drawdownFrom xs zero h)) h'

/-- The drawdown does not change while the last value of the curve stays. -/
theorem drawdown_append_replicate {last : Decimal} (hl : xs.getLast? = some last)
    (h : drawdown xs = .ok depth) (n : Nat) :
    drawdown (xs ++ List.replicate n last) = .ok depth := by
  obtain ⟨front, rfl⟩ := List.getLast?_eq_some_iff.1 hl
  have some_value : front ++ [last] ≠ [] := List.concat_ne_nil last front
  obtain ⟨first, start⟩ := exists_drawdown_eq some_value
  have zero : 0 ≤ Decimal.zero.toRat := Decimal.toRat_zero.ge
  rw [← List.append_nil (front ++ [last]), start, List.append_nil,
    drawdownFrom_append [last] front zero] at h
  obtain ⟨before, hb, h⟩ := bind_eq_ok_iff.1 h
  have nonneg := zero.trans (worst_le_of_drawdownFrom front zero hb)
  rw [drawdownFrom_cons nonneg] at h
  obtain ⟨fall, hf, h⟩ := bind_eq_ok_iff.1 h
  cases h
  -- the fall of the last value counts already, and so do those of its copies
  rw [start, List.append_assoc, drawdownFrom_append _ front zero, hb]
  change drawdownFrom _ before (last :: List.replicate n last) = _
  rw [drawdownFrom_cons nonneg, hf]
  exact drawdownFrom_replicate (nonneg.trans (Decimal.le_max_right fall before))
    (Decimal.le_max_left last _) hf (Decimal.le_max_left fall before) n

/-- A flat curve has no drawdown. -/
theorem drawdown_replicate : ∀ n : Nat, drawdown (List.replicate n .one) = .ok .zero
  | 0 => rfl
  | n + 1 => by
    have one_value : drawdown [.one] = .ok .zero := by decide +kernel
    exact drawdown_append_replicate rfl one_value n

end Curves
end Backtest
