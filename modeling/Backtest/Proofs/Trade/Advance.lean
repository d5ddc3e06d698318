/-
The simulation bar by bar. `BarStep` lists everything the close of a bar can do to the trades of a
record, and `barStep_advance` says that it does one of these; what a run keeps is derived from the
four cases. A run over several bars splits anywhere and reads only the signals of its own bars.
-/
import Backtest.Proofs.Trade.Orders
import Backtest.Trade.Simulation

namespace Backtest.TradeRecord

/-! ## One bar -/

/-- What the close of a bar can do to the trades: nothing while none is open or while the open one
is held, open a trade, or close the open one. -/
inductive BarStep (signals : Signals) (close : Fill) : List Trade → List Trade → Prop
  | wait {trades : List Trade} (flat : ∀ t, trades.getLast? = some t → t.exit ≠ none)
      (quiet : signals.enters close.index = false) : BarStep signals close trades trades
  | enter {trades : List Trade} (flat : ∀ t, trades.getLast? = some t → t.exit ≠ none)
      (signal : signals.enters close.index = true) :
      BarStep signals close trades (trades ++ [⟨close, none⟩])
  | hold {earlier : List Trade} {entry : Fill}
      (quiet : signals.leaves close.index = false ∨ close.index ≤ entry.index) :
      BarStep signals close (earlier ++ [⟨entry, none⟩]) (earlier ++ [⟨entry, none⟩])
  | exit {earlier : List Trade} {entry : Fill} (signal : signals.leaves close.index = true)
      (later : entry.index < close.index) :
      BarStep signals close (earlier ++ [⟨entry, none⟩]) (earlier ++ [⟨entry, some close⟩])

theorem barStep_advance (signals : Signals) (r : TradeRecord) (close : Fill) :
    BarStep signals close r.trades (r.advance signals close).trades := by
  unfold advance position
  rcases ho : r.openTrade? with _ | t
  · have flat := openTrade?_eq_none_iff.1 ho
    simp only
    by_cases hs : signals.enters close.index = true
    · have step := orderStep_fill r (.enter close)
      rw [show (r.fill? (.enter close)).isSome = true from isSome_enter?.2 ho] at step
      rw [if_pos hs]
      generalize (r.fill (.enter close)).trades = after at step
      cases step
      exact .enter flat hs
    · rw [if_neg hs]
      exact .wait flat (by simpa using hs)
  · obtain ⟨⟨earlier, hr⟩, hx⟩ := openTrade?_eq_some_iff.1 ho
    obtain ⟨entry, exit⟩ := t
    cases hx
    simp only
    by_cases hs : signals.leaves close.index = true
    · have step := orderStep_fill r (.exit close)
      rw [if_pos hs]
      generalize (r.fill? (.exit close)).isSome = ok at step
      generalize (r.fill (.exit close)).trades = after at step
      generalize r.trades = trades at hr step
      cases step with
      | exit later => exact .exit hs later
      | refuseExit early =>
        cases hr
        exact .hold (.inr (early ⟨entry, none⟩ List.getLast?_concat rfl))
    · rw [if_neg hs, hr]
      exact .hold (.inl (by simpa using hs))

@[simp] theorem quantity_advance (signals : Signals) (r : TradeRecord) (close : Fill) :
    (r.advance signals close).quantity = r.quantity := by
  unfold advance
  split <;> split <;> simp only [quantity_fill]

/-! ## Several bars -/

@[simp] theorem quantity_advanceAll (signals : Signals) (closes : List Decimal) :
    ∀ (r : TradeRecord) (index : Nat), (advanceAll signals r index closes).quantity = r.quantity := by
  induction closes with
  | nil => intro r index; rfl
  | cons close rest ih =>
    intro r index
    unfold advanceAll
    rw [ih, quantity_advance]

/-- A run over the bars of two lists goes on with the second where it was after the first. -/
theorem advanceAll_append (signals : Signals) (ys : List Decimal) :
    ∀ (xs : List Decimal) (r : TradeRecord) (index : Nat), advanceAll signals r index (xs ++ ys) =
      advanceAll signals (advanceAll signals r index xs) (index + xs.length) ys
  | [], _, _ => rfl
  | x :: xs, r, index => by
    simp only [List.cons_append, advanceAll, List.length_cons]
    rw [advanceAll_append signals ys xs, Nat.add_assoc, Nat.add_comm 1]

/-- A run reads no signal but those of its bars. -/
theorem advanceAll_congr {signals signals' : Signals} :
    ∀ (closes : List Decimal) (r : TradeRecord) (index : Nat),
      (∀ i, index ≤ i → i < index + closes.length →
        signals.enters i = signals'.enters i ∧ signals.leaves i = signals'.leaves i) →
      advanceAll signals r index closes = advanceAll signals' r index closes
  | [], _, _, _ => rfl
  | close :: rest, r, index, h => by
    have first : r.advance signals ⟨index, close⟩ = r.advance signals' ⟨index, close⟩ := by
      obtain ⟨he, hl⟩ := h index (Nat.le_refl _) (by simp)
      unfold advance
      rw [he, hl]
    unfold advanceAll
    rw [first]
    refine advanceAll_congr rest _ _ fun i h1 h2 => h i (by omega) ?_
    simp only [List.length_cons]
    omega

end Backtest.TradeRecord
