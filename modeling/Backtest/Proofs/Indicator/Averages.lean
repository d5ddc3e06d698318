/-
Averages close by close. `WindowStep` and `TrendStep` list what a close can do to the window of the
simple average and to the exponential average: be summed up without being shown, complete the first
average, or move it. Each case names every operation it takes, so what holds of the averages is
derived from the cases and not from the loops.
-/
import Backtest.Indicator.Average
import Backtest.Proofs.Chain

namespace Backtest.Indicator

/-! ## The simple average -/

/-- What a close makes of the window, and what it shows. -/
inductive WindowStep (period : Nat) : Window → Decimal → Window → Option Decimal → Prop
  | fill {filled : Nat} {sum close sum' : Decimal} {leaving : List Decimal}
      (added : sum.add close = .ok sum') (short : filled + 1 < period) :
      WindowStep period ⟨filled, sum, leaving⟩ close ⟨filled + 1, sum', leaving⟩ none
  | complete {filled : Nat} {sum close sum' v : Decimal} {leaving : List Decimal}
      (added : sum.add close = .ok sum') (last : filled + 1 = period)
      (mean : sum'.part period = .ok v) :
      WindowStep period ⟨filled, sum, leaving⟩ close ⟨filled + 1, sum', leaving⟩ (some v)
  | slide {filled : Nat} {sum close with_close left sum' v : Decimal} {later : List Decimal}
      (added : sum.add close = .ok with_close) (full : period ≤ filled)
      (removed : with_close.sub left = .ok sum') (mean : sum'.part period = .ok v) :
      WindowStep period ⟨filled, sum, left :: later⟩ close ⟨filled, sum', later⟩ (some v)
  /-- No close is known that could leave the window. -/
  | widen {filled : Nat} {sum close sum' v : Decimal} (added : sum.add close = .ok sum')
      (full : period ≤ filled) (mean : sum'.part period = .ok v) :
      WindowStep period ⟨filled, sum, []⟩ close ⟨filled, sum', []⟩ (some v)

section Window

variable {period : Nat} {w t : Window} {close : Decimal} {shown : Option Decimal}

theorem Window.step_of_slide (h : w.slide period close = .ok (t, shown)) :
    WindowStep period w close t shown := by
  obtain ⟨filled, sum, leaving⟩ := w
  unfold slide at h
  obtain ⟨with_close, added, h⟩ := bind_eq_ok_iff.1 h
  dsimp only at added h
  split at h
  · next room =>
    split at h
    · next short =>
      cases pure_eq_ok_iff.1 h
      exact .fill added short
    · next last =>
      obtain ⟨v, mean, h⟩ := bind_eq_ok_iff.1 h
      cases pure_eq_ok_iff.1 h
      exact .complete added (by omega) mean
  · next full =>
    rcases leaving with _ | ⟨left, later⟩
    · obtain ⟨_, kept, h⟩ := bind_eq_ok_iff.1 h
      cases pure_eq_ok_iff.1 kept
      obtain ⟨v, mean, h⟩ := bind_eq_ok_iff.1 h
      cases pure_eq_ok_iff.1 h
      exact .widen added (Nat.le_of_not_lt full) mean
    · obtain ⟨sum', removed, h⟩ := bind_eq_ok_iff.1 h
      obtain ⟨v, mean, h⟩ := bind_eq_ok_iff.1 h
      cases pure_eq_ok_iff.1 h
      exact .slide added (Nat.le_of_not_lt full) removed mean

/-- Each of the steps is one that the close makes. -/
theorem WindowStep.slide_eq_ok (s : WindowStep period w close t shown) :
    w.slide period close = .ok (t, shown) := by
  cases s with
  | fill added short =>
    refine bind_eq_ok_iff.2 ⟨_, added, ?_⟩
    rw [if_pos (Nat.lt_of_succ_lt short), if_pos short]
    rfl
  | complete added last mean =>
    refine bind_eq_ok_iff.2 ⟨_, added, ?_⟩
    rw [if_pos (Nat.lt_of_succ_le (Nat.le_of_eq last)), if_neg (Nat.not_lt.2 (Nat.le_of_eq last.symm))]
    exact bind_eq_ok_iff.2 ⟨_, mean, rfl⟩
  | slide added full removed mean =>
    refine bind_eq_ok_iff.2 ⟨_, added, ?_⟩
    rw [if_neg (Nat.not_lt.2 full)]
    exact bind_eq_ok_iff.2 ⟨_, removed, bind_eq_ok_iff.2 ⟨_, mean, rfl⟩⟩
  | widen added full mean =>
    refine bind_eq_ok_iff.2 ⟨_, added, ?_⟩
    rw [if_neg (Nat.not_lt.2 full)]
    exact bind_eq_ok_iff.2 ⟨_, rfl, bind_eq_ok_iff.2 ⟨_, mean, rfl⟩⟩

end Window

/-! ## The exponential average -/

/-- What a close makes of the average, and what it shows. -/
inductive TrendStep (period : Nat) (fraction : Decimal) :
    Trend → Decimal → Trend → Option Decimal → Prop
  | warm {count : Nat} {sum close sum' : Decimal} (added : sum.add close = .ok sum')
      (short : count + 1 < period) :
      TrendStep period fraction (.warming count sum) close (.warming (count + 1) sum') none
  | seed {count : Nat} {sum close sum' average : Decimal} (added : sum.add close = .ok sum')
      (full : period ≤ count + 1) (mean : sum'.part period = .ok average) :
      TrendStep period fraction (.warming count sum) close (.moving average) (some average)
  | move {average close distance part average' : Decimal} (away : close.sub average = .ok distance)
      (weighted : fraction.mul distance = .ok part) (moved : average.add part = .ok average') :
      TrendStep period fraction (.moving average) close (.moving average') (some average')

section Trend

variable {period : Nat} {fraction close : Decimal} {m t : Trend} {shown : Option Decimal}

theorem Trend.step_of_advance (h : m.advance period fraction close = .ok (t, shown)) :
    TrendStep period fraction m close t shown := by
  cases m with
  | warming count sum =>
    unfold advance at h
    obtain ⟨sum', added, h⟩ := bind_eq_ok_iff.1 h
    split at h
    · next short =>
      cases pure_eq_ok_iff.1 h
      exact .warm added short
    · next full =>
      obtain ⟨average, mean, h⟩ := bind_eq_ok_iff.1 h
      cases pure_eq_ok_iff.1 h
      exact .seed added (Nat.le_of_not_lt full) mean
  | moving average =>
    unfold advance at h
    obtain ⟨distance, away, h⟩ := bind_eq_ok_iff.1 h
    obtain ⟨part, weighted, h⟩ := bind_eq_ok_iff.1 h
    obtain ⟨average', moved, h⟩ := bind_eq_ok_iff.1 h
    cases pure_eq_ok_iff.1 h
    exact .move away weighted moved

theorem TrendStep.advance_eq_ok (s : TrendStep period fraction m close t shown) :
    m.advance period fraction close = .ok (t, shown) := by
  cases s with
  | warm added short => exact bind_eq_ok_iff.2 ⟨_, added, if_pos short⟩
  | seed added full mean =>
    refine bind_eq_ok_iff.2 ⟨_, added, ?_⟩
    rw [if_neg (Nat.not_lt.2 full)]
    exact bind_eq_ok_iff.2 ⟨_, mean, rfl⟩
  | move away weighted moved =>
    exact bind_eq_ok_iff.2 ⟨_, away, bind_eq_ok_iff.2 ⟨_, weighted,
      bind_eq_ok_iff.2 ⟨_, moved, rfl⟩⟩⟩

/-- The average, once it has started. -/
def Trend.average? : Trend → Option Decimal
  | .warming _ _ => none
  | .moving average => some average

/-- A step shows the average it leaves. -/
theorem TrendStep.shown_eq (s : TrendStep period fraction m close t shown) :
    shown = t.average? := by
  cases s <;> rfl

end Trend
end Backtest.Indicator
