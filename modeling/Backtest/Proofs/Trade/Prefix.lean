/-
The simulation does not look ahead: over the first bars of a series its trades are those of the
whole series as they stand before the next bar (`tradesBefore`), with exits that have not happened
yet left out. A bar changes nothing about the trades before it.
-/
import Backtest.Proofs.Trade.Schedule

namespace Backtest

/-- The trade as it stands before a bar: an exit from there on has not happened. -/
def Trade.before (n : Nat) (t : Trade) : Trade :=
  ⟨t.entry, t.exit.filter fun exit => exit.index < n⟩

/-- The trades entered before a bar, as they stand there. -/
def tradesBefore (n : Nat) (trades : List Trade) : List Trade :=
  (trades.filter fun t => t.entry.index < n).map (Trade.before n)

theorem tradesBefore_append (n : Nat) (xs ys : List Trade) :
    tradesBefore n (xs ++ ys) = tradesBefore n xs ++ tradesBefore n ys := by
  unfold tradesBefore
  rw [List.filter_append, List.map_append]

theorem tradesBefore_cons_of_lt {n : Nat} {t : Trade} (h : t.entry.index < n) (ts : List Trade) :
    tradesBefore n (t :: ts) = t.before n :: tradesBefore n ts := by
  unfold tradesBefore
  rw [List.filter_cons_of_pos (by simpa using h), List.map_cons]

theorem tradesBefore_of_le {n : Nat} {ts : List Trade} (h : ∀ t ∈ ts, n ≤ t.entry.index) :
    tradesBefore n ts = [] := by
  unfold tradesBefore
  rw [List.map_eq_nil_iff, List.filter_eq_nil_iff]
  intro t ht
  have := h t ht
  simp only [decide_eq_true_eq]
  omega

/-- A trade that is over before the bar stands there as it is. -/
theorem Trade.before_eq_self {n : Nat} {t : Trade}
    (h : ∀ exit, t.exit = some exit → exit.index < n) : t.before n = t := by
  obtain ⟨entry, exit⟩ := t
  unfold before
  rcases exit with _ | x
  · rfl
  · simp [h x rfl]

/-- After the last bar all trades stand as they are. -/
theorem TradeSequence.tradesBefore_length {closes : List Decimal} {trades : List Trade}
    (h : TradeSequence closes trades) : tradesBefore closes.length trades = trades := by
  unfold tradesBefore
  rw [List.filter_eq_self.2 fun t ht => by simpa using h.entry_lt ht]
  have same : ∀ t ∈ trades, t.before closes.length = id t :=
    fun t ht => Trade.before_eq_self fun _ hx => h.exit_lt ht hx
  rw [List.map_congr_left same, List.map_id]

namespace TradeRecord

/-- A bar changes nothing about the trades before it. -/
theorem tradesBefore_advance {n : Nat} (signals : Signals) (r : TradeRecord) {close : Fill}
    (h : n ≤ close.index) :
    tradesBefore n (r.advance signals close).trades = tradesBefore n r.trades := by
  have step := barStep_advance signals r close
  generalize r.trades = trades at step
  generalize (r.advance signals close).trades = after at step
  cases step with
  | wait => rfl
  | enter flat signal =>
    have new : tradesBefore n [⟨close, none⟩] = [] :=
      tradesBefore_of_le (List.forall_mem_singleton.2 h)
    rw [tradesBefore_append, new, List.append_nil]
  | hold => rfl
  | @exit earlier entry signal later =>
    rw [tradesBefore_append, tradesBefore_append]
    congr 1
    unfold tradesBefore Trade.before
    by_cases he : entry.index < n
    · simp [he, h]
    · simp [he]

theorem tradesBefore_advanceAll {n : Nat} (signals : Signals) : ∀ (closes : List Decimal)
    (r : TradeRecord) {index : Nat}, n ≤ index →
    tradesBefore n (r.advanceAll signals index closes).trades = tradesBefore n r.trades
  | [], _, _, _ => rfl
  | close :: rest, r, index, h => by
    unfold advanceAll
    rw [tradesBefore_advanceAll signals rest _ (Nat.le_succ_of_le h), tradesBefore_advance signals r h]

/-- The run over the first bars has the trades of the whole run as they stand after these bars. -/
theorem trades_advanceAll_take (signals : Signals) (quantity : Decimal) {closes : List Decimal}
    {n : Nat} (hn : n ≤ closes.length) :
    (advanceAll signals (empty quantity) 0 (closes.take n)).trades =
      tradesBefore n (advanceAll signals (empty quantity) 0 closes).trades := by
  have length : (closes.take n).length = n := by
    rw [List.length_take]
    omega
  have sequence : GreedySchedule signals (closes.take n)
      (advanceAll signals (empty quantity) 0 (closes.take n)).trades :=
    GreedySchedule.advanceAll (closes.take n) (r := empty quantity) (.nil signals)
  -- the whole run goes on from the run over the first bars
  have whole : advanceAll signals (empty quantity) 0 closes =
      advanceAll signals (advanceAll signals (empty quantity) 0 (closes.take n)) n
        (closes.drop n) := by
    conv => lhs; rw [← List.take_append_drop n closes]
    rw [advanceAll_append, length, Nat.zero_add]
  have stands := sequence.tradesBefore_length
  rw [length] at stands
  rw [whole, tradesBefore_advanceAll signals _ _ (Nat.le_refl n), stands]

/-- Over the first bars, with the same signals there, the simulation has the same quantity and the
trades as they stand after these bars. -/
theorem simulate_take {signals signals' : Signals} {cash : Decimal} {closes : List Decimal}
    {r : TradeRecord} {n : Nat} (h : simulate signals cash closes = .ok r) (hp : 1 ≤ n)
    (hn : n ≤ closes.length)
    (agree : ∀ i < n, signals'.enters i = signals.enters i ∧ signals'.leaves i = signals.leaves i) :
    simulate signals' cash (closes.take n) = .ok ⟨r.quantity, tradesBefore n r.trades⟩ := by
  rcases closes with _ | ⟨first, rest⟩
  · simp only [List.length_nil] at hn
    omega
  rcases n with _ | n
  · omega
  obtain ⟨quantity, hq, h⟩ := bind_eq_ok_iff.1 h
  cases pure_eq_ok_iff.1 h
  have same : advanceAll signals' (empty quantity) 0 ((first :: rest).take (n + 1)) =
      advanceAll signals (empty quantity) 0 ((first :: rest).take (n + 1)) := by
    refine advanceAll_congr _ _ _ fun i _ hi => agree i ?_
    rw [List.length_take] at hi
    omega
  refine bind_eq_ok_iff.2 ⟨quantity, hq, pure_eq_ok_iff.2 ?_⟩
  show advanceAll signals' (empty quantity) 0 ((first :: rest).take (n + 1)) = _
  rw [same, ← trades_advanceAll_take signals quantity hn, quantity_advanceAll]
  have kept := quantity_advanceAll signals ((first :: rest).take (n + 1)) (empty quantity) 0
  rw [← kept]

end TradeRecord
end Backtest
