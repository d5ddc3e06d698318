/-
Price bars and the series that a backtest runs over. A series is valid when every close is
positive and every bar ends later than the one before it; `Series.ofBars?` checks that and names
the first bar at fault.
-/
import Backtest.Calendar.Instant
import Backtest.Decimal.Text

namespace Backtest

/-- The prices and the volume of one period, and the end of the period. -/
structure Bar where
  time : Instant
  opening : Decimal
  high : Decimal
  low : Decimal
  close : Decimal
  volume : Decimal
  deriving DecidableEq

/-- Bars that make up a series. -/
structure ValidBars (bars : List Bar) : Prop where
  positive : ∀ bar ∈ bars, bar.close.IsPositive
  ascending : bars.Pairwise (fun a b => a.time < b.time)

structure Series where
  symbol : String
  bars : List Bar
  valid : ValidBars bars

/-- What is wrong with the bar of the given index. -/
inductive SeriesFault where
  | nonPositiveClose (index : Nat) (close : Decimal)
  | notAfter (index : Nat) (time previous : Instant)
  deriving DecidableEq

def SeriesFault.message : SeriesFault → String
  | nonPositiveClose index close => s!"bar {index} has non-positive close {close.text}"
  | notAfter index time previous =>
    s!"bar {index} at {time.text} does not follow {previous.text}"

namespace Series

/-- Check the bars from `index` on, the previous of which ended at `previous`. -/
def check (index : Nat) (previous : Option Instant) : List Bar → Except SeriesFault Unit
  | [] => .ok ()
  | bar :: rest =>
    if ¬ bar.close.IsPositive then .error (.nonPositiveClose index bar.close)
    else
      match previous with
      | none => check (index + 1) (some bar.time) rest
      | some time =>
        if time < bar.time then check (index + 1) (some bar.time) rest
        else .error (.notAfter index bar.time time)

theorem valid_of_check {bars : List Bar} {index : Nat} {previous : Option Instant}
    (h : check index previous bars = .ok ()) :
    ValidBars bars ∧ ∀ time, previous = some time → ∀ bar ∈ bars, time < bar.time := by
  induction bars generalizing index previous with
  | nil => exact ⟨⟨by simp, List.Pairwise.nil⟩, by simp⟩
  | cons bar rest ih =>
    have step (hp : bar.close.IsPositive) (hr : check (index + 1) (some bar.time) rest = .ok ()) :
        ValidBars (bar :: rest) ∧ ∀ b ∈ rest, bar.time < b.time := by
      obtain ⟨⟨positive, ascending⟩, after⟩ := ih hr
      have after := after bar.time rfl
      exact ⟨⟨by simpa using ⟨hp, positive⟩, List.pairwise_cons.mpr ⟨after, ascending⟩⟩, after⟩
    unfold check at h
    split at h
    · cases h
    · next hp =>
      have hp := Decidable.not_not.mp hp
      split at h
      · exact ⟨(step hp h).1, by simp⟩
      · next time =>
        split at h
        · next hlt =>
          obtain ⟨valid, after⟩ := step hp h
          refine ⟨valid, fun t ht b hb => ?_⟩
          cases ht
          rcases List.mem_cons.mp hb with rfl | hb
          · exact hlt
          · exact Instant.lt_trans hlt (after b hb)
        · cases h

/-- The series of the bars, if they are valid. -/
def ofBars? (symbol : String) (bars : List Bar) : Except SeriesFault Series :=
  match h : check 0 none bars with
  | .ok () => .ok ⟨symbol, bars, (valid_of_check h).1⟩
  | .error fault => .error fault

/-- The series without bars. -/
def empty (symbol : String) : Series :=
  ⟨symbol, [], by simp, List.Pairwise.nil⟩

/-- The number of bars. -/
def length (s : Series) : Nat :=
  s.bars.length

def isEmpty (s : Series) : Bool :=
  s.bars.isEmpty

/-- The index of the first bar. -/
def firstIndex? (s : Series) : Option Nat :=
  if s.bars.isEmpty then none else some 0

/-- The index of the last bar. -/
def lastIndex? (s : Series) : Option Nat :=
  if s.bars.isEmpty then none else some (s.bars.length - 1)

def bar? (s : Series) (index : Nat) : Option Bar :=
  s.bars[index]?

def closes (s : Series) : List Decimal :=
  s.bars.map (·.close)

@[simp] theorem length_closes (s : Series) : s.closes.length = s.length :=
  List.length_map _

/-- Every close of a series is positive. -/
theorem isPositive_of_mem_closes {s : Series} {close : Decimal} (h : close ∈ s.closes) :
    close.IsPositive := by
  obtain ⟨bar, hb, rfl⟩ := List.mem_map.mp h
  exact s.valid.positive bar hb

end Series
end Backtest
