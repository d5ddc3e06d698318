/-
The strength index lies between none and a hundred, exactly, although its averages are rounded at
every close and the index itself three times. The hundredfold of the gain is not rounded, the sum of
both averages is rounded to no less than the gain, and so the quotient of the two to no more than a
hundred. The index is a hundred as long as no close falls. As long as none rises it is zero, from
the first loss on that does not vanish in the averages.
-/
import Backtest.Proofs.Indicator.Division
import Backtest.Proofs.Indicator.Scan

namespace Backtest.Indicator

/-- What is known of gains and losses after some closes. -/
def Momentum.after (period : ℕ) (closes : List Decimal) : Except Fault Momentum :=
  stateAfter (advance period) .start closes

/-- What a value of the index says about the closes so far and their averages. -/
structure ShowsStrength (seen : List Decimal) (gain loss v : Decimal) : Prop where
  nonneg : .zero ≤ gain ∧ .zero ≤ loss
  shown : strength gain loss = .ok v
  divisor : loss.magnitude ≠ 0 → ∃ total, gain.add loss = .ok total ∧ total.magnitude ≠ 0
  bounds : .zero ≤ v ∧ v ≤ .hundred
  never_fell : seen.IsChain (· ≤ ·) → v = .hundred
  never_rose : seen.IsChain (· ≥ ·) → loss.magnitude ≠ 0 → v.toRat = 0

/-! ## The index of two averages -/

section Strength

variable {gain loss v : Decimal}

theorem strength_of_no_loss (h : loss.magnitude = 0) (gain : Decimal) :
    strength gain loss = .ok .hundred :=
  if_pos h

theorem strength_eq_ok_iff (some_loss : loss.magnitude ≠ 0) :
    strength gain loss = .ok v ↔ ∃ share total, Decimal.hundred.mul gain = .ok share ∧
      gain.add loss = .ok total ∧ share.div total = .ok v := by
  unfold strength
  rw [if_neg some_loss, bind_eq_ok_iff]
  refine exists_congr fun share => ?_
  rw [bind_eq_ok_iff, exists_and_left]

/-- The gain is a part of the sum of both averages, so its share is one of a hundred percent. -/
theorem strength_bounds (hg : 0 ≤ gain.toRat) (hl : 0 ≤ loss.toRat)
    (h : strength gain loss = .ok v) : .zero ≤ v ∧ v ≤ .hundred := by
  rw [Decimal.le_iff, Decimal.le_iff, Decimal.toRat_zero, Decimal.toRat_hundred]
  by_cases some_loss : loss.magnitude = 0
  · rw [strength_of_no_loss some_loss] at h
    cases h
    rw [Decimal.toRat_hundred]
    norm_num
  · obtain ⟨share, total, hs, ht, hv⟩ := (strength_eq_ok_iff some_loss).1 h
    have positive := add_pos_of_loss hg hl some_loss ht
    -- the gain is an amount, so rounding does not take the sum below it either
    have part : gain.toRat ≤ total.toRat :=
      Decimal.le_toRat_of_nearest? (Decimal.add_eq_ok_iff.1 ht) (by linarith)
    have ratio := (Decimal.div_eq_ok_iff.1 hv).2
    rw [Decimal.toRat_hundred_mul hs] at ratio
    refine ⟨Decimal.nonneg_of_nearest? ratio (by positivity),
      Decimal.le_hundred_of_nearest? ratio ?_⟩
    rw [div_le_iff₀ positive]
    linarith

theorem strength_of_no_gain (hg : gain.toRat = 0) (some_loss : loss.magnitude ≠ 0)
    (h : strength gain loss = .ok v) : v.toRat = 0 := by
  obtain ⟨share, total, hs, -, hv⟩ := (strength_eq_ok_iff some_loss).1 h
  have ratio := (Decimal.div_eq_ok_iff.1 hv).2
  rw [Decimal.toRat_hundred_mul hs, hg, mul_zero, zero_div] at ratio
  exact Decimal.toRat_of_nearest?_zero ratio

end Strength

/-! ## The values over some closes -/

section Values

variable {period : ℕ} {closes : List Decimal} {values : Values}

/-- What the averages keep of the closes makes a value what it says about them. -/
theorem Momentum.Follows.showsStrength {seen : List Decimal} {last gain loss v : Decimal}
    (h : (averaging last gain loss).Follows seen) (shown : strength gain loss = .ok v) :
    ShowsStrength seen gain loss v := by
  obtain ⟨hg, hl⟩ := h.nonneg
  refine ⟨?_, shown, fun some_loss => ?_, strength_bounds hg hl shown, fun rises => ?_,
    fun falls some_loss => strength_of_no_gain (h.gain falls) some_loss shown⟩
  · rw [Decimal.le_iff, Decimal.le_iff, Decimal.toRat_zero]
    exact ⟨hg, hl⟩
  · obtain ⟨share, total, -, ht, -⟩ := (strength_eq_ok_iff some_loss).1 shown
    refine ⟨total, ht, fun none => ?_⟩
    exact (add_pos_of_loss hg hl some_loss ht).ne' (Decimal.magnitude_eq_zero_iff.1 none)
  · have none : loss.toRat = 0 := h.loss rises
    rw [strength_of_no_loss (Decimal.magnitude_eq_zero_iff.2 none)] at shown
    exact (Except.ok.inj shown).symm

theorem Momentum.follows_after {m : Momentum} (h : after period closes = .ok m) :
    m.Follows closes :=
  stateAfter_induction (fun seen m => m.Follows seen)
    (fun _ _ _ _ _ follows hs => follows.step (step_of_advance hs)) closes follows_nil h

/-- A defined value is the index of the averages up to its close. -/
theorem exists_showsStrength {i : ℕ} {v : Decimal}
    (h : scan (Momentum.advance period) .start closes = .ok values) (hi : values.at? i = some v) :
    ∃ last gain loss,
      Momentum.after period (closes.take (i + 1)) = .ok (.averaging last gain loss) ∧
      ShowsStrength (closes.take (i + 1)) gain loss v := by
  have here : values[i]? = some (some v) := Option.join_eq_some_iff.1 hi
  obtain ⟨before, close, after, hs, ha⟩ := exists_step_of_scan h here
  obtain ⟨gain, loss, rfl, shown⟩ := (Momentum.step_of_advance hs).exists_strength
  exact ⟨close, gain, loss, ha, (Momentum.follows_after ha).showsStrength shown⟩

/-- Unless an operation overflows, the index has values: it never divides by zero. The averages of
gains and losses stay at zero or above from close to close, and each value is the index of those up
to its close. -/
theorem rsiValues_showStrength
    (fits : ∀ fault, rsiValues period closes = .error fault → fault = .zeroDivisor) :
    ∃ values, rsiValues period closes = .ok values ∧
      (period ≠ 0 → period < closes.length → ∀ n ≤ closes.length,
        ∃ m, Momentum.after period (closes.take n) = .ok m ∧ m.Nonneg) ∧
      ∀ i v, values.at? i = some v → ∃ last gain loss,
        Momentum.after period (closes.take (i + 1)) = .ok (.averaging last gain loss) ∧
        ShowsStrength (closes.take (i + 1)) gain loss v := by
  obtain ⟨values, hv⟩ : ∃ values, rsiValues period closes = .ok values := by
    rcases hr : rsiValues period closes with fault | values
    · cases fits fault hr
      exact absurd hr (safe_rsiValues period closes)
    · exact ⟨values, rfl⟩
  have scanned := hv
  unfold rsiValues at scanned
  refine ⟨values, hv, fun hp hl n hn => ?_, fun i v hi => ?_⟩
  · -- the scan of the first closes has values, so it has a state after them
    rw [if_neg (by omega)] at scanned
    obtain ⟨m, hm⟩ := exists_stateAfter _ (scan_take_self hn scanned)
    exact ⟨m, hm, (Momentum.follows_after hm).nonneg⟩
  · split at scanned
    · cases scanned
      rw [at?_undefined] at hi
      cases hi
    · exact exists_showsStrength scanned hi

/-- Over three closes that fall and rise again by the same, with a period of one. -/
theorem rsiValues_of_fall_and_rise :
    let closes : List Decimal := [.one, -.one, .one]
    ∃ values, rsiValues 1 closes = .ok values ∧
      values.map (·.map Decimal.toRat) = [none, some 0, some 100] ∧
      (∀ n ≤ 3, ∃ m, Momentum.after 1 (closes.take n) = .ok m ∧ m.Nonneg) ∧
      ∀ i v, values.at? i = some v → ∃ last gain loss,
        Momentum.after 1 (closes.take (i + 1)) = .ok (.averaging last gain loss) ∧
        ShowsStrength (closes.take (i + 1)) gain loss v := by
  intro closes
  have outcome : (rsiValues 1 closes).toOption.map (·.map (·.map Decimal.toRat)) =
      some [none, some 0, some 100] := by decide +kernel
  obtain ⟨values, hv, shape⟩ := exists_of_toOption_map outcome
  have fits : ∀ fault, rsiValues 1 closes = .error fault → fault = .zeroDivisor := by
    rw [hv]
    exact fun fault h => nomatch h
  obtain ⟨values', hv', states, shows⟩ := rsiValues_showStrength fits
  cases hv.symm.trans hv'
  exact ⟨values, hv, shape, states (by decide) (by decide), shows⟩

end Values
end Backtest.Indicator
