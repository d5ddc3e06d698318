/-
The equity curve bar by bar. `CurveStep` lists what can happen at a bar: nothing is held and nothing
changes, the held trade is valued, or the next trade is entered there and valued. The curve has a
value at each bar by one of these three cases, and what holds of it is derived from them.
-/
import Backtest.Equity.Curve
import Backtest.Proofs.Chain

namespace Backtest

theorem Holding.value_eq_ok_iff {h : Holding} {close value : Decimal} :
    h.value close = .ok value ↔ ∃ grown, h.base.mul close = .ok grown ∧
      grown.div h.price = .ok value := by
  unfold Holding.value
  rw [bind_eq_ok_iff]

/-- What is held of it after a bar, which may be its last. -/
def Holding.after (index : Nat) (h : Holding) : Option Holding :=
  if h.lastBar ≤ index then none else some h

/-- What is held of the trade, entered with the given equity. -/
def Trade.holding (lastIndex : Nat) (equity : Decimal) (t : Trade) : Holding :=
  ⟨equity, t.entry.price, t.lastBar lastIndex⟩

/-- The value of the curve at a bar, from what is held and ahead before it to what is so after it. -/
inductive CurveStep (lastIndex index : Nat) (equity close : Decimal) :
    Option Holding → List Trade → Decimal → Option Holding → List Trade → Prop
  | flat {ahead : List Trade} (none_here : ∀ t, ahead.head? = some t → t.entry.index ≠ index) :
      CurveStep lastIndex index equity close none ahead equity none ahead
  | held {h : Holding} {ahead : List Trade} {value : Decimal} (valued : h.value close = .ok value) :
      CurveStep lastIndex index equity close (some h) ahead value (h.after index) ahead
  | enter {t : Trade} {later : List Trade} {value : Decimal} (here : t.entry.index = index)
      (valued : (t.holding lastIndex equity).value close = .ok value) :
      CurveStep lastIndex index equity close none (t :: later) value
        ((t.holding lastIndex equity).after index) later

section Loop

variable {lastIndex index : Nat} {equity close : Decimal} {rest values : List Decimal}

theorem takeUp_flat {ahead : List Trade}
    (h : ∀ t, ahead.head? = some t → t.entry.index ≠ index) :
    takeUp lastIndex index equity none ahead = (none, ahead) := by
  rcases ahead with _ | ⟨t, later⟩
  · rfl
  · exact if_neg (h t rfl)

theorem takeUp_enter {t : Trade} (h : t.entry.index = index) (later : List Trade) :
    takeUp lastIndex index equity none (t :: later) =
      (some (t.holding lastIndex equity), later) :=
  if_pos h

/-- Either the next trade is entered at the bar, or nothing is. -/
theorem enter_or_flat (index : Nat) (ahead : List Trade) :
    (∃ t later, ahead = t :: later ∧ t.entry.index = index) ∨
      ∀ t, ahead.head? = some t → t.entry.index ≠ index := by
  rcases ahead with _ | ⟨t, later⟩
  · exact .inr fun _ e => by cases e
  · by_cases here : t.entry.index = index
    · exact .inl ⟨t, later, rfl, here⟩
    · refine .inr fun u hu => ?_
      cases hu
      exact here

/-- With a trade held the bar has its value, and the rest of the curve goes on from there. -/
theorem equityFrom_of_holding {h : Holding} {held : Option Holding} {ahead ahead' : List Trade}
    (ht : takeUp lastIndex index equity held ahead = (some h, ahead')) :
    equityFrom lastIndex index equity held ahead (close :: rest) = .ok values ↔
      ∃ value values', h.value close = .ok value ∧
        equityFrom lastIndex (index + 1) value (h.after index) ahead' rest = .ok values' ∧
        values = value :: values' := by
  rw [equityFrom, ht]
  simp only [bind_eq_ok_iff, pure_eq_ok_iff]
  constructor
  · rintro ⟨value, hv, values', hr, rfl⟩
    exact ⟨value, values', hv, hr, rfl⟩
  · rintro ⟨value, values', hv, hr, rfl⟩
    exact ⟨value, hv, values', hr, rfl⟩

theorem equityFrom_of_flat {held : Option Holding} {ahead ahead' : List Trade}
    (ht : takeUp lastIndex index equity held ahead = (none, ahead')) :
    equityFrom lastIndex index equity held ahead (close :: rest) = .ok values ↔
      ∃ values', equityFrom lastIndex (index + 1) equity none ahead' rest = .ok values' ∧
        values = equity :: values' := by
  rw [equityFrom, ht]
  simp only [bind_eq_ok_iff, pure_eq_ok_iff, @eq_comm _ values]

/-- The curve from a bar on is the value at that bar and the curve from the next one on. -/
theorem equityFrom_cons_eq_ok_iff {held : Option Holding} {ahead : List Trade} :
    equityFrom lastIndex index equity held ahead (close :: rest) = .ok values ↔
      ∃ value held' ahead' values',
        CurveStep lastIndex index equity close held ahead value held' ahead' ∧
        equityFrom lastIndex (index + 1) value held' ahead' rest = .ok values' ∧
        values = value :: values' := by
  constructor
  · intro h
    rcases held with _ | hd
    · rcases enter_or_flat index ahead with ⟨t, later, rfl, here⟩ | flat
      · obtain ⟨value, values', hv, hr, rfl⟩ := (equityFrom_of_holding (takeUp_enter here later)).1 h
        exact ⟨value, _, later, values', .enter here hv, hr, rfl⟩
      · obtain ⟨values', hr, rfl⟩ := (equityFrom_of_flat (takeUp_flat flat)).1 h
        exact ⟨equity, none, ahead, values', .flat flat, hr, rfl⟩
    · obtain ⟨value, values', hv, hr, rfl⟩ := (equityFrom_of_holding rfl).1 h
      exact ⟨value, _, ahead, values', .held hv, hr, rfl⟩
  · rintro ⟨value, held', ahead', values', step, hr, rfl⟩
    cases step with
    | flat none_here => exact (equityFrom_of_flat (takeUp_flat none_here)).2 ⟨values', hr, rfl⟩
    | held valued => exact (equityFrom_of_holding rfl).2 ⟨value, values', valued, hr, rfl⟩
    | enter here valued =>
      exact (equityFrom_of_holding (takeUp_enter here ahead')).2 ⟨value, values', valued, hr, rfl⟩

end Loop
end Backtest
