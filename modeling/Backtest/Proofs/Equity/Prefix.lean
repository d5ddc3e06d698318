/-
The equity curve marked to market does not look ahead: over the first bars of a series it is the
first part of the curve of the whole series. The two loops take up the same trades at the same
bars. They differ only in where a trade ends that goes on past the first bars, and the shorter loop
is over by then.
-/
import Backtest.Proofs.Equity.Valuation
import Backtest.Proofs.Trade.Prefix
import Mathlib.Data.List.Perm.Subperm

namespace Backtest

/-- The holding in a series that ends before a bar, where it lasts to the end at most. -/
def Holding.before (n : Nat) (h : Holding) : Holding :=
  ⟨h.base, h.price, min h.lastBar (n - 1)⟩

/-- A trade as it stands before a bar lasts to the end of the shorter series at most. -/
theorem Trade.lastBar_before {n lastIndex : Nat} (hn : n ≤ lastIndex + 1) (t : Trade) :
    (t.before n).lastBar (n - 1) = min (t.lastBar lastIndex) (n - 1) := by
  obtain ⟨entry, exit⟩ := t
  unfold before lastBar
  rcases exit with _ | x
  · show n - 1 = min lastIndex (n - 1)
    omega
  · by_cases hx : x.index < n
    · rw [Option.filter_some, if_pos (by simpa using hx)]
      show x.index = min x.index (n - 1)
      omega
    · rw [Option.filter_some, if_neg (by simpa using hx)]
      show n - 1 = min x.index (n - 1)
      omega

/-- Trades in the order of their entries. -/
def Ascending (trades : List Trade) : Prop :=
  trades.Pairwise fun t u => t.entry.index < u.entry.index

theorem TradeSequence.ascending {closes : List Decimal} {trades : List Trade}
    (h : TradeSequence closes trades) : Ascending trades := by
  refine h.pairwise.imp_of_mem fun {t u} ht _ htu => ?_
  obtain ⟨x, hx, hlt⟩ := htu
  have := h.forward t ht x hx
  omega

/-- Each trade is entered at a bar of its own. -/
theorem TradeSequence.length_le {closes : List Decimal} {trades : List Trade}
    (h : TradeSequence closes trades) : trades.length ≤ closes.length := by
  have entries : (trades.map fun t => t.entry.index).Nodup := by
    rw [List.Nodup, List.pairwise_map]
    exact h.ascending.imp fun lt => ne_of_lt lt
  have within : (trades.map fun t => t.entry.index) ⊆ List.range closes.length := by
    intro index hi
    obtain ⟨t, ht, rfl⟩ := List.mem_map.1 hi
    exact List.mem_range.2 (h.entry_lt ht)
  have le := (List.subperm_of_subset entries within).length_le
  rwa [List.length_map, List.length_range] at le

/-- If the first trade is not entered before the bar, none is. -/
theorem Ascending.tradesBefore_eq_nil {n : Nat} {t : Trade} {later : List Trade}
    (h : Ascending (t :: later)) (ht : n ≤ t.entry.index) : tradesBefore n (t :: later) = [] := by
  refine tradesBefore_of_le fun u hu => ?_
  rcases List.mem_cons.1 hu with rfl | hu
  · exact ht
  · have := (List.pairwise_cons.1 h).1 u hu
    omega

/-- With another bar before `n`, a holding ends in the shorter series as it does in the longer one. -/
theorem Holding.after_before {n index : Nat} (hi : index + 1 < n) (h : Holding) :
    (h.before n).after index = (h.after index).map (Holding.before n) := by
  have same : (h.before n).lastBar ≤ index ↔ h.lastBar ≤ index := by
    show min h.lastBar (n - 1) ≤ index ↔ _
    omega
  unfold after
  by_cases hl : h.lastBar ≤ index
  · rw [if_pos (same.2 hl), if_pos hl]
    rfl
  · rw [if_neg (mt same.1 hl), if_neg hl]
    rfl

section Loop

variable {lastIndex n index : Nat} {equity close value : Decimal} {held held' : Option Holding}
variable {ahead ahead' : List Trade}

theorem Ascending.step (ha : Ascending ahead)
    (s : CurveStep lastIndex index equity close held ahead value held' ahead') :
    Ascending ahead' := by
  cases s with
  | flat => exact ha
  | held => exact ha
  | enter => exact ha.of_cons

/-- At a bar before `n` the two series go the same step. What the shorter one holds after its last
bar is left open. -/
theorem CurveStep.before (hn : n ≤ lastIndex + 1) (hi : index < n) (ha : Ascending ahead)
    (s : CurveStep lastIndex index equity close held ahead value held' ahead') :
    ∃ shorter, CurveStep (n - 1) index equity close (held.map (Holding.before n))
        (tradesBefore n ahead) value shorter (tradesBefore n ahead') ∧
      (index + 1 < n → shorter = held'.map (Holding.before n)) := by
  cases s with
  | flat none_here =>
    refine ⟨none, .flat fun t ht => ?_, fun _ => rfl⟩
    rcases ahead with _ | ⟨u, later⟩
    · cases ht
    · by_cases hu : u.entry.index < n
      · rw [tradesBefore_cons_of_lt hu] at ht
        cases ht
        exact none_here u rfl
      · rw [ha.tradesBefore_eq_nil (Nat.le_of_not_lt hu)] at ht
        cases ht
  | @held h _ _ valued =>
    exact ⟨(h.before n).after index, .held valued, fun hi => Holding.after_before hi h⟩
  | @enter t _ _ here valued =>
    have same : (t.before n).holding (n - 1) equity = (t.holding lastIndex equity).before n := by
      unfold Trade.holding
      rw [Trade.lastBar_before hn]
      rfl
    rw [tradesBefore_cons_of_lt (here ▸ hi)]
    refine ⟨((t.before n).holding (n - 1) equity).after index, .enter here ?_, fun hi => ?_⟩
    · rw [same]
      exact valued
    · rw [same]
      exact Holding.after_before hi _

end Loop

/-- The curve from bar `index` on over the bars before `n`. Past its end the shorter series may hold
anything. -/
theorem equityFrom_take {lastIndex n : Nat} (hn : n ≤ lastIndex + 1) : ∀ (closes : List Decimal)
    {index : Nat} {equity : Decimal} {held shorter : Option Holding} {ahead : List Trade}
    {values : List Decimal}, index ≤ n → (index < n → shorter = held.map (Holding.before n)) →
    Ascending ahead → equityFrom lastIndex index equity held ahead closes = .ok values →
    equityFrom (n - 1) index equity shorter (tradesBefore n ahead) (closes.take (n - index)) =
      .ok (values.take (n - index))
  | [], _, _, _, _, _, _, _, _, _, h => by
    cases h
    rw [List.take_nil]
    rfl
  | close :: rest, index, equity, held, shorter, ahead, values, hi, hs, ha, h => by
    rcases Nat.eq_or_lt_of_le hi with rfl | hi
    · rw [Nat.sub_self]
      rfl
    · obtain ⟨value, held', ahead', values', step, hr, rfl⟩ := equityFrom_cons_eq_ok_iff.1 h
      obtain ⟨shorter', step', hs'⟩ := step.before hn hi ha
      have ih := equityFrom_take hn rest hi hs' (ha.step step) hr
      have hm : n - index = n - (index + 1) + 1 := by omega
      rw [hs hi, hm, List.take_succ_cons, List.take_succ_cons]
      exact equityFrom_cons_eq_ok_iff.2 ⟨value, shorter', _, _, step', ih, rfl⟩

theorem TradeRecord.shown_markToMarket (r : TradeRecord) : r.shown .markToMarket = r.trades :=
  List.filter_eq_self.2 fun t _ => Bool.or_true t.isClosed

/-- The curve of the first bars, with the trades as they stand after them, is the first part of the
curve. -/
theorem equityCurve_take {r : TradeRecord} {closes curve : List Decimal} {n : Nat}
    (sequence : TradeSequence closes r.trades) (hn : n ≤ closes.length)
    (h : equityCurve .markToMarket r closes = .ok curve) :
    equityCurve .markToMarket ⟨r.quantity, tradesBefore n r.trades⟩ (closes.take n) =
      .ok (curve.take n) := by
  have length : (closes.take n).length = n := List.length_take_of_le hn
  unfold equityCurve at h ⊢
  rw [TradeRecord.shown_markToMarket] at h ⊢
  rw [length]
  exact equityFrom_take (by omega) closes (Nat.zero_le n) (fun _ => rfl) sequence.ascending h

end Backtest
