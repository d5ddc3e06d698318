/-
Gains and losses close by close. `MomentumStep` lists what a close can do to them: be the first one,
be summed up, complete the first averages, or move them. A change counts as a gain above zero, its
opposite as a loss, and each step takes in one of them with every intermediate result rounded
(`Gathers`): what is gathered never falls below zero, and stays at zero while nothing counts.
-/
import Backtest.Indicator.Strength
import Backtest.Proofs.Chain
import Backtest.Proofs.Decimal.Arithmetic
import Mathlib.Data.List.Chain

namespace Backtest.Indicator

/-- The gains and losses so far are not below zero. -/
def Momentum.Nonneg : Momentum → Prop
  | .start => True
  | .summing _ _ gain loss | .averaging _ gain loss => 0 ≤ gain.toRat ∧ 0 ≤ loss.toRat

/-! ## Gathering changes -/

/-- What a sum or an average of the changes above zero makes of one more change. -/
structure Gathers (gathered change result : Decimal) : Prop where
  nonneg : 0 ≤ gathered.toRat → 0 ≤ result.toRat
  still : gathered.toRat = 0 → change.toRat ≤ 0 → result.toRat = 0

namespace Gathers

variable {period : ℕ} {gathered weighted change total result : Decimal}

theorem of_add (h : gathered.add (max change .zero) = .ok result) :
    Gathers gathered change result := by
  have h := Decimal.add_eq_ok_iff.1 h
  rw [Decimal.toRat_max, Decimal.toRat_zero] at h
  refine ⟨fun hg => Decimal.nonneg_of_nearest? h (add_nonneg hg (le_max_right _ _)),
    fun hg hc => ?_⟩
  rw [hg, max_eq_right hc, add_zero] at h
  exact Decimal.toRat_of_nearest?_zero h

theorem part (g : Gathers gathered change total) (h : total.part period = .ok result) :
    Gathers gathered change result := by
  have h := (Decimal.part_eq_ok_iff.1 h).2
  refine ⟨fun hg => Decimal.nonneg_of_nearest? h (div_nonneg (g.nonneg hg) (Nat.cast_nonneg _)),
    fun hg hc => ?_⟩
  rw [g.still hg hc, zero_div] at h
  exact Decimal.toRat_of_nearest?_zero h

theorem times (h : gathered.times period = .ok weighted) (g : Gathers weighted change result) :
    Gathers gathered change result := by
  have h := Decimal.times_eq_ok_iff.1 h
  refine ⟨fun hg => g.nonneg (Decimal.nonneg_of_nearest? h (mul_nonneg hg (Nat.cast_nonneg _))),
    fun hg hc => g.still ?_ hc⟩
  rw [hg, zero_mul] at h
  exact Decimal.toRat_of_nearest?_zero h

theorem of_smooth (h : smooth period gathered (max change .zero) = .ok result) :
    Gathers gathered change result := by
  unfold smooth at h
  obtain ⟨weighted, hw, h⟩ := bind_eq_ok_iff.1 h
  obtain ⟨total, ht, h⟩ := bind_eq_ok_iff.1 h
  exact .times hw ((of_add ht).part h)

end Gathers

/-! ## One close -/

/-- What a close makes of the gains and losses so far, and what it shows. -/
inductive MomentumStep (period : ℕ) : Momentum → Decimal → Momentum → Option Decimal → Prop
  | start (close : Decimal) :
      MomentumStep period .start close (.summing 0 close .zero .zero) none
  | sum {changes : ℕ} {last gain loss close change gain' loss' : Decimal}
      (moved : close.sub last = .ok change) (short : changes + 1 < period)
      (gained : gain.add (max change .zero) = .ok gain')
      (lost : loss.add (max (-change) .zero) = .ok loss') :
      MomentumStep period (.summing changes last gain loss) close
        (.summing (changes + 1) close gain' loss') none
  | seed {changes : ℕ} {last gain loss close change gains losses gain' loss' v : Decimal}
      (moved : close.sub last = .ok change) (full : ¬ changes + 1 < period)
      (gained : gain.add (max change .zero) = .ok gains) (averageGain : gains.part period = .ok gain')
      (lost : loss.add (max (-change) .zero) = .ok losses)
      (averageLoss : losses.part period = .ok loss') (shown : strength gain' loss' = .ok v) :
      MomentumStep period (.summing changes last gain loss) close (.averaging close gain' loss')
        (some v)
  | move {last gain loss close change gain' loss' v : Decimal}
      (moved : close.sub last = .ok change)
      (gained : smooth period gain (max change .zero) = .ok gain')
      (lost : smooth period loss (max (-change) .zero) = .ok loss')
      (shown : strength gain' loss' = .ok v) :
      MomentumStep period (.averaging last gain loss) close (.averaging close gain' loss') (some v)

namespace Momentum

variable {period : ℕ} {m t : Momentum} {close : Decimal} {shown : Option Decimal}

theorem step_of_advance (h : m.advance period close = .ok (t, shown)) :
    MomentumStep period m close t shown := by
  cases m with
  | start =>
    cases h
    exact .start close
  | summing changes last gain loss =>
    unfold advance at h
    obtain ⟨change, hc, h⟩ := bind_eq_ok_iff.1 h
    obtain ⟨gains, hg, h⟩ := bind_eq_ok_iff.1 h
    split at h
    · next short =>
      obtain ⟨losses, hl, h⟩ := bind_eq_ok_iff.1 h
      cases pure_eq_ok_iff.1 h
      exact .sum hc short hg hl
    · next full =>
      obtain ⟨gain', hg', h⟩ := bind_eq_ok_iff.1 h
      obtain ⟨losses, hl, h⟩ := bind_eq_ok_iff.1 h
      obtain ⟨loss', hl', h⟩ := bind_eq_ok_iff.1 h
      obtain ⟨v, hv, h⟩ := bind_eq_ok_iff.1 h
      cases pure_eq_ok_iff.1 h
      exact .seed hc full hg hg' hl hl' hv
  | averaging last gain loss =>
    unfold advance at h
    obtain ⟨change, hc, h⟩ := bind_eq_ok_iff.1 h
    obtain ⟨gain', hg, h⟩ := bind_eq_ok_iff.1 h
    obtain ⟨loss', hl, h⟩ := bind_eq_ok_iff.1 h
    obtain ⟨v, hv, h⟩ := bind_eq_ok_iff.1 h
    cases pure_eq_ok_iff.1 h
    exact .move hc hg hl hv

/-- The last close taken in. -/
def last? : Momentum → Option Decimal
  | .start => none
  | .summing _ last _ _ | .averaging last _ _ => some last

/-- The gains so far, summed up or averaged. -/
def gain : Momentum → Decimal
  | .start => .zero
  | .summing _ _ gain _ | .averaging _ gain _ => gain

/-- The losses so far, summed up or averaged. -/
def loss : Momentum → Decimal
  | .start => .zero
  | .summing _ _ _ loss | .averaging _ _ loss => loss

theorem nonneg_iff : m.Nonneg ↔ 0 ≤ m.gain.toRat ∧ 0 ≤ m.loss.toRat := by
  cases m with
  | start => simp [Nonneg, gain, loss]
  | summing | averaging => exact Iff.rfl

end Momentum

namespace MomentumStep

variable {period : ℕ} {m t : Momentum} {close : Decimal} {shown : Option Decimal}

/-- Each of the steps is one that the close makes. -/
theorem advance_eq_ok (s : MomentumStep period m close t shown) :
    m.advance period close = .ok (t, shown) := by
  cases s with
  | start => rfl
  | sum moved short gained lost =>
    refine bind_eq_ok_iff.2 ⟨_, moved, bind_eq_ok_iff.2 ⟨_, gained, ?_⟩⟩
    rw [if_pos short]
    exact bind_eq_ok_iff.2 ⟨_, lost, rfl⟩
  | seed moved full gained averageGain lost averageLoss shown =>
    refine bind_eq_ok_iff.2 ⟨_, moved, bind_eq_ok_iff.2 ⟨_, gained, ?_⟩⟩
    rw [if_neg full]
    refine bind_eq_ok_iff.2 ⟨_, averageGain, bind_eq_ok_iff.2 ⟨_, lost, ?_⟩⟩
    exact bind_eq_ok_iff.2 ⟨_, averageLoss, bind_eq_ok_iff.2 ⟨_, shown, rfl⟩⟩
  | move moved gained lost shown =>
    refine bind_eq_ok_iff.2 ⟨_, moved, bind_eq_ok_iff.2 ⟨_, gained, ?_⟩⟩
    exact bind_eq_ok_iff.2 ⟨_, lost, bind_eq_ok_iff.2 ⟨_, shown, rfl⟩⟩

theorem last?_eq (s : MomentumStep period m close t shown) : t.last? = some close := by
  cases s <;> rfl

/-- The change from the last close is taken in as a gain, and its opposite as a loss. -/
theorem gathers {last : Decimal} (s : MomentumStep period m close t shown)
    (h : m.last? = some last) : ∃ change, close.sub last = .ok change ∧
      Gathers m.gain change t.gain ∧ Gathers m.loss (-change) t.loss := by
  cases s with
  | start => cases h
  | sum moved short gained lost =>
    cases h
    exact ⟨_, moved, .of_add gained, .of_add lost⟩
  | seed moved full gained averageGain lost averageLoss shown =>
    cases h
    exact ⟨_, moved, (Gathers.of_add gained).part averageGain,
      (Gathers.of_add lost).part averageLoss⟩
  | move moved gained lost shown =>
    cases h
    exact ⟨_, moved, .of_smooth gained, .of_smooth lost⟩

/-- A value is shown with the averages it is computed from. -/
theorem exists_strength {v : Decimal} (s : MomentumStep period m close t (some v)) :
    ∃ gain loss, t = .averaging close gain loss ∧ strength gain loss = .ok v := by
  cases s with
  | seed _ _ _ _ _ _ shown => exact ⟨_, _, rfl, shown⟩
  | move _ _ _ shown => exact ⟨_, _, rfl, shown⟩

end MomentumStep

/-! ## All closes so far -/

namespace Momentum

variable {period : ℕ} {m t : Momentum} {close : Decimal} {shown : Option Decimal}
variable {seen : List Decimal}

/-- The last close is kept, gains and losses are not below zero, and there is no gain as long as no
close rises and no loss as long as none falls. -/
structure Follows (seen : List Decimal) (m : Momentum) : Prop where
  last : m.last? = seen.getLast?
  nonneg : m.Nonneg
  gain : seen.IsChain (· ≥ ·) → m.gain.toRat = 0
  loss : seen.IsChain (· ≤ ·) → m.loss.toRat = 0

theorem follows_nil : start.Follows [] :=
  ⟨rfl, trivial, fun _ => Decimal.toRat_zero, fun _ => Decimal.toRat_zero⟩

/-- Gains and losses stay at zero or above. -/
theorem Nonneg.step (h : m.Nonneg) (s : MomentumStep period m close t shown) : t.Nonneg := by
  rcases hm : m.last? with _ | last
  · cases s with
    | start => exact nonneg_iff.2 ⟨Decimal.toRat_zero.ge, Decimal.toRat_zero.ge⟩
    | sum | seed | move => cases hm
  · obtain ⟨change, -, gained, lost⟩ := s.gathers hm
    obtain ⟨gain_nonneg, loss_nonneg⟩ := nonneg_iff.1 h
    exact nonneg_iff.2 ⟨gained.nonneg gain_nonneg, lost.nonneg loss_nonneg⟩

theorem Follows.step (h : m.Follows seen) (s : MomentumStep period m close t shown) :
    t.Follows (seen ++ [close]) := by
  have last : t.last? = (seen ++ [close]).getLast? := by
    rw [s.last?_eq, List.getLast?_concat]
  have nonneg := h.nonneg.step s
  rcases hm : m.last? with _ | prev
  · cases s with
    | start => exact ⟨last, nonneg, fun _ => Decimal.toRat_zero, fun _ => Decimal.toRat_zero⟩
    | sum | seed | move => cases hm
  · -- the change counts against the last close, so the chain of the closes says its sign
    obtain ⟨change, moved, gained, lost⟩ := s.gathers hm
    have ends : prev ∈ seen.getLast? := h.last ▸ hm
    have moved := Decimal.sub_eq_ok_iff.1 moved
    refine ⟨last, nonneg, fun falls => ?_, fun rises => ?_⟩
    · obtain ⟨falls, -, fell⟩ := List.isChain_append.1 falls
      have fell := Decimal.le_iff.1 (fell prev ends close rfl)
      exact gained.still (h.gain falls) (Decimal.nonpos_of_nearest? moved (sub_nonpos.2 fell))
    · obtain ⟨rises, -, rose⟩ := List.isChain_append.1 rises
      have rose := Decimal.le_iff.1 (rose prev ends close rfl)
      have up := Decimal.nonneg_of_nearest? moved (sub_nonneg.2 rose)
      refine lost.still (h.loss rises) ?_
      rw [Decimal.toRat_neg]
      exact neg_nonpos.2 up

end Momentum
end Backtest.Indicator
