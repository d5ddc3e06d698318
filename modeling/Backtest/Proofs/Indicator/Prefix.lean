/-
No indicator looks ahead: over the first closes of a series it has the first of its values, and it
has them whenever it has values over the whole series. For the averages that scan the closes this
is a simulation between two scans. The window of the simple average is fed from the closes it was
given, so there the two states differ in what leaves the window after the last close; the strength
index shows nothing over a series no longer than its period, nor over the first closes of a longer
one.
-/
import Backtest.Indicator.Cache
import Backtest.Proofs.Indicator.Averages
import Backtest.Proofs.Indicator.Momentum
import Backtest.Proofs.Indicator.Scan

namespace Backtest.Indicator

theorem undefined_take (closes : List Decimal) (n : Nat) :
    undefined (closes.take n).length = (undefined closes.length).take n := by
  unfold undefined
  rw [List.take_replicate, List.length_take]

/-! ## The simple average -/

/-- Two windows that differ only in what leaves them beyond the next `n` closes. -/
def Window.Agrees (n : Nat) (w w' : Window) : Prop :=
  w.filled = w'.filled ∧ w.sum = w'.sum ∧ n ≤ w'.leaving.length ∧ w'.leaving <+: w.leaving

theorem Window.agrees_slide (period n : Nat) (w w' : Window) (close : Decimal) (v : Window)
    (shown : Option Decimal) (h : w.Agrees (n + 1) w') (hs : w.slide period close = .ok (v, shown)) :
    ∃ v', w'.slide period close = .ok (v', shown) ∧ v.Agrees n v' := by
  obtain ⟨filled, sum, leaving⟩ := w
  obtain ⟨filled', sum', leaving'⟩ := w'
  obtain ⟨rfl, rfl, hlen, hpre⟩ := h
  cases step_of_slide hs with
  | fill added short =>
    exact ⟨_, (WindowStep.fill added short).slide_eq_ok, rfl, rfl, Nat.le_of_succ_le hlen, hpre⟩
  | complete added last mean =>
    exact ⟨_, (WindowStep.complete added last mean).slide_eq_ok, rfl, rfl, Nat.le_of_succ_le hlen,
      hpre⟩
  | slide added full removed mean =>
    -- a close is still to come, so the shorter window has one to leave it
    rcases leaving' with _ | ⟨left, later⟩
    · cases hlen
    obtain ⟨rfl, kept⟩ := List.cons_prefix_cons.1 hpre
    exact ⟨_, (WindowStep.slide added full removed mean).slide_eq_ok, rfl, rfl,
      Nat.le_of_succ_le_succ hlen, kept⟩
  | widen =>
    cases List.prefix_nil.1 hpre
    cases hlen

theorem smaValues_take {period n : Nat} {closes : List Decimal} {values : Values}
    (hn : n ≤ closes.length) (h : smaValues period closes = .ok values) :
    smaValues period (closes.take n) = .ok (values.take n) := by
  unfold smaValues at h ⊢
  by_cases hp : period = 0
  · rw [if_pos hp] at h ⊢
    cases h
    rw [undefined_take]
  · rw [if_neg hp] at h ⊢
    have start : Window.Agrees n ⟨0, .zero, closes⟩ ⟨0, .zero, closes.take n⟩ :=
      ⟨rfl, rfl, by simp [hn], List.take_prefix n closes⟩
    exact scan_take (R := fun n => Window.Agrees n) (Window.agrees_slide period) closes n hn start h

/-! ## The exponential average -/

theorem emaValues_take {period n : Nat} {closes : List Decimal} {values : Values}
    (hn : n ≤ closes.length) (h : emaValues period closes = .ok values) :
    emaValues period (closes.take n) = .ok (values.take n) := by
  unfold emaValues at h ⊢
  by_cases hp : period = 0
  · rw [if_pos hp] at h ⊢
    cases h
    rw [undefined_take]
  · rw [if_neg hp] at h ⊢
    obtain ⟨fraction, hf, h⟩ := bind_eq_ok_iff.1 h
    exact bind_eq_ok_iff.2 ⟨fraction, hf, scan_take_self hn h⟩

/-! ## The strength index -/

/-- While the first changes are summed up, nothing is shown. -/
theorem Momentum.getElem?_of_summing {period : Nat} : ∀ (closes : List Decimal) {changes : Nat}
    {last gain loss : Decimal} {values : Values},
    scan (advance period) (.summing changes last gain loss) closes = .ok values →
    ∀ k, changes + 1 + k < period → k < closes.length → values[k]? = some none
  | [], _, _, _, _, _, _, _, _, hk => absurd hk (Nat.not_lt_zero _)
  | close :: rest, changes, last, gain, loss, values, h, k, hc, hk => by
    obtain ⟨t, shown, later, hs, hl, rfl⟩ := scan_cons_eq_ok_iff.1 h
    cases step_of_advance hs with
    | sum =>
      rcases k with _ | k
      · rfl
      · exact getElem?_of_summing rest hl k (by omega) (Nat.lt_of_succ_lt_succ hk)
    | seed _ full =>
      exact absurd (by omega) full

/-- The first values of a strength index, as many as its period, are undefined. -/
theorem Momentum.getElem?_of_start {period : Nat} {closes : List Decimal} {values : Values}
    (h : scan (advance period) .start closes = .ok values) {k : Nat} (hp : k < period)
    (hk : k < closes.length) : values[k]? = some none := by
  rcases closes with _ | ⟨close, rest⟩
  · exact absurd hk (Nat.not_lt_zero _)
  obtain ⟨t, shown, later, hs, hl, rfl⟩ := scan_cons_eq_ok_iff.1 h
  cases hs
  rcases k with _ | k
  · rfl
  · exact getElem?_of_summing rest hl k (by omega) (Nat.lt_of_succ_lt_succ hk)

theorem rsiValues_take {period n : Nat} {closes : List Decimal} {values : Values}
    (hn : n ≤ closes.length) (h : rsiValues period closes = .ok values) :
    rsiValues period (closes.take n) = .ok (values.take n) := by
  unfold rsiValues at h ⊢
  by_cases hp : period = 0 ∨ closes.length ≤ period
  · rw [if_pos hp] at h
    cases h
    rw [if_pos (by rw [List.length_take]; omega), undefined_take]
  · rw [if_neg hp] at h
    by_cases hs : n ≤ period
    · -- the shorter series is too short for the period, and the longer one still warms up
      rw [if_pos (.inr (by rw [List.length_take]; omega))]
      have length := length_scan h
      congr 1
      refine List.ext_getElem? fun k => ?_
      unfold undefined
      rw [List.length_take, List.getElem?_replicate, List.getElem?_take]
      by_cases hk : k < n
      · rw [if_pos (by omega), if_pos hk, Momentum.getElem?_of_start h (by omega) (by omega)]
      · rw [if_neg (by omega), if_neg hk]
    · rw [if_neg (by rw [List.length_take]; omega)]
      exact scan_take_self hn h

/-! ## All indicators -/

/-- The values over the first closes are the first values. -/
theorem values_take {i : Indicator} {n : Nat} {closes : List Decimal} {values : Values}
    (hn : n ≤ closes.length) (h : i.values closes = .ok values) :
    i.values (closes.take n) = .ok (values.take n) := by
  cases i with
  | price =>
    cases h
    show Except.ok ((closes.take n).map some) = _
    rw [List.map_take]
  | sma period => exact smaValues_take hn h
  | ema period => exact emaValues_take hn h
  | rsi period => exact rsiValues_take hn h

end Backtest.Indicator
