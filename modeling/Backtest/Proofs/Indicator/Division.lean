/-
No indicator divides by zero. The averages divide by their period, which is not zero where they have
values. The strength index divides by the sum of an average gain and an average loss: both stay at
zero or above through every rounded step (`Momentum.Nonneg`), so a loss above zero keeps their
rounded sum above zero.
-/
import Backtest.Indicator.Cache
import Backtest.Proofs.Decimal.Division
import Backtest.Proofs.Indicator.Momentum

namespace Backtest

namespace Indicator

/-! ## Scans -/

/-- A scan is safe if its step is, in all states that steps lead to. -/
theorem safe_scan {σ : Type} {step : σ → Decimal → Except Fault (σ × Option Decimal)}
    (Inv : σ → Prop) (safe : ∀ s close, Inv s → SafeDivision (step s close))
    (keeps : ∀ s close t shown, Inv s → step s close = .ok (t, shown) → Inv t) :
    ∀ (closes : List Decimal) {s : σ}, Inv s → SafeDivision (scan step s closes)
  | [], _, _ => .ok _
  | close :: rest, s, hs => by
    unfold scan
    refine (safe s close hs).bind fun result ht => ?_
    obtain ⟨t, shown⟩ := result
    exact (safe_scan Inv safe keeps rest (keeps s close t shown hs ht)).bind fun _ _ => .ok _

/-! ## Averages -/

theorem safe_slide {period : ℕ} (hp : period ≠ 0) (w : Window) (close : Decimal) :
    SafeDivision (w.slide period close) := by
  unfold Window.slide
  refine (Decimal.safe_add _ _).bind fun sum _ => ?_
  have shown (sum : Decimal) (w : Window) :
      SafeDivision (do return (w, some (← sum.part period))) :=
    (Decimal.safe_part hp).bind fun _ _ => .ok _
  dsimp only
  split
  · split
    · exact .ok _
    · exact shown _ _
  · split
    · exact shown _ _
    · exact (Decimal.safe_sub _ _).bind fun _ _ => shown _ _

theorem safe_smaValues (period : ℕ) (closes : List Decimal) :
    SafeDivision (smaValues period closes) := by
  unfold smaValues
  split
  · exact .ok _
  · next hp =>
    exact safe_scan (fun _ => True) (fun w close _ => safe_slide hp w close)
      (fun _ _ _ _ _ _ => trivial) closes trivial

theorem safe_trend {period : ℕ} (hp : period ≠ 0) (fraction : Decimal) (t : Trend)
    (close : Decimal) : SafeDivision (t.advance period fraction close) := by
  cases t with
  | warming count sum =>
    refine (Decimal.safe_add _ _).bind fun sum _ => ?_
    split
    · exact .ok _
    · exact (Decimal.safe_part hp).bind fun _ _ => .ok _
  | moving average =>
    refine (Decimal.safe_sub _ _).bind fun distance _ => ?_
    refine (Decimal.safe_mul _ _).bind fun part _ => ?_
    exact (Decimal.safe_add _ _).bind fun _ _ => .ok _

theorem safe_emaValues (period : ℕ) (closes : List Decimal) :
    SafeDivision (emaValues period closes) := by
  unfold emaValues
  split
  · exact .ok _
  · next hp =>
    refine (Decimal.safe_ratio (Nat.succ_ne_zero period)).bind fun fraction _ => ?_
    exact safe_scan (fun _ => True) (fun t close _ => safe_trend hp fraction t close)
      (fun _ _ _ _ _ _ => trivial) closes trivial

/-! ## Strength -/

/-- With a loss above zero both averages together are above zero: rounding does not take their sum
below the loss. -/
theorem add_pos_of_loss {gain loss total : Decimal} (hg : 0 ≤ gain.toRat) (hl : 0 ≤ loss.toRat)
    (some_loss : loss.magnitude ≠ 0) (ht : gain.add loss = .ok total) : 0 < total.toRat := by
  have above : 0 < loss.toRat :=
    lt_of_le_of_ne hl fun e => some_loss (Decimal.magnitude_eq_zero_iff.2 e.symm)
  exact above.trans_le (Decimal.le_toRat_of_nearest? (Decimal.add_eq_ok_iff.1 ht) (by linarith))

theorem safe_strength {gain loss : Decimal} (hg : 0 ≤ gain.toRat) (hl : 0 ≤ loss.toRat) :
    SafeDivision (strength gain loss) := by
  unfold strength
  split
  · exact .ok _
  · next some_loss =>
    refine (Decimal.safe_mul _ _).bind fun share _ => (Decimal.safe_add _ _).bind fun total ht => ?_
    exact Decimal.safe_div (add_pos_of_loss hg hl some_loss ht).ne'

theorem safe_smooth {period : ℕ} (hp : period ≠ 0) (average change : Decimal) :
    SafeDivision (smooth period average change) := by
  unfold smooth
  refine (Decimal.safe_times _ _).bind fun weighted _ => ?_
  exact (Decimal.safe_add _ _).bind fun total _ => Decimal.safe_part hp

theorem safe_momentum {period : ℕ} (hp : period ≠ 0) {m : Momentum} (hm : m.Nonneg)
    (close : Decimal) : SafeDivision (m.advance period close) := by
  cases m with
  | start => exact .ok _
  | summing changes last gain loss =>
    refine (Decimal.safe_sub _ _).bind fun change _ => (Decimal.safe_add _ _).bind fun gain hg => ?_
    split
    · exact (Decimal.safe_add _ _).bind fun _ _ => .ok _
    · refine (Decimal.safe_part hp).bind fun averageGain hag => ?_
      refine (Decimal.safe_add _ _).bind fun loss hl => ?_
      refine (Decimal.safe_part hp).bind fun averageLoss hal => ?_
      exact (safe_strength (((Gathers.of_add hg).part hag).nonneg hm.1)
        (((Gathers.of_add hl).part hal).nonneg hm.2)).bind fun _ _ => .ok _
  | averaging last gain loss =>
    refine (Decimal.safe_sub _ _).bind fun change _ => ?_
    refine (safe_smooth hp _ _).bind fun averageGain hag => ?_
    refine (safe_smooth hp _ _).bind fun averageLoss hal => ?_
    exact (safe_strength ((Gathers.of_smooth hag).nonneg hm.1)
      ((Gathers.of_smooth hal).nonneg hm.2)).bind fun _ _ => .ok _

theorem safe_rsiValues (period : ℕ) (closes : List Decimal) :
    SafeDivision (rsiValues period closes) := by
  unfold rsiValues
  split
  · exact .ok _
  · next defined =>
    have hp : period ≠ 0 := fun e => defined (.inl e)
    exact safe_scan Momentum.Nonneg (fun m close hm => safe_momentum hp hm close)
      (fun _ _ _ _ hm h => hm.step (Momentum.step_of_advance h)) closes trivial

theorem safe_values (closes : List Decimal) (i : Indicator) : SafeDivision (i.values closes) := by
  cases i with
  | price => exact .ok _
  | sma period => exact safe_smaValues period closes
  | ema period => exact safe_emaValues period closes
  | rsi period => exact safe_rsiValues period closes

end Indicator

/-! ## Caches -/

theorem IndicatorCache.safe_ensure (cache : IndicatorCache) (closes : List Decimal) (i : Indicator) :
    SafeDivision (cache.ensure closes i) := by
  unfold ensure
  split
  · exact .ok _
  · exact (Indicator.safe_values closes i).bind fun _ _ => .ok _

theorem IndicatorCache.safe_ensureAll (closes : List Decimal) : ∀ (is : List Indicator)
    (cache : IndicatorCache), SafeDivision (cache.ensureAll closes is)
  | [], _ => .ok _
  | i :: rest, cache =>
    (safe_ensure cache closes i).bind fun cache _ => safe_ensureAll closes rest cache

end Backtest
