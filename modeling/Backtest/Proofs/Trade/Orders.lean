/-
Orders on a record. `OrderStep` lists everything that an order can do: it is refused and changes
nothing, it opens a trade at the end, or it fills the exit of the last trade. Whatever the orders and
the bars of their fills, what a record keeps is derived from these cases: only the last trade may be
open and every exit comes after its entry (`SoundTrades`), what has been filled is never filled again
(`Extends`), and trades and exits are counted by the orders that were taken.
-/
import Backtest.Trade.Record
import Mathlib.Data.List.Chain

namespace Backtest

namespace Order

/-- The bar at which it is filled. -/
def index : Order → Nat
  | enter fill => fill.index
  | exit fill => fill.index

def isEnter : Order → Bool
  | enter _ => true
  | exit _ => false

def isExit : Order → Bool
  | enter _ => false
  | exit _ => true

end Order

namespace TradeRecord

/-! ## The open trade -/

/-- The open trade is the last one, without an exit. -/
theorem openTrade?_eq_some_iff {r : TradeRecord} {t : Trade} :
    r.openTrade? = some t ↔ (∃ earlier, r.trades = earlier ++ [t]) ∧ t.exit = none := by
  unfold openTrade?
  rw [Option.filter_eq_some_iff, List.getLast?_eq_some_iff, Trade.isOpen, Option.isNone_iff_eq_none]

theorem openTrade?_eq_none_iff {r : TradeRecord} :
    r.openTrade? = none ↔ ∀ t, r.trades.getLast? = some t → t.exit ≠ none := by
  unfold openTrade?
  rw [Option.filter_eq_none_iff]
  simp [Trade.isOpen]

/-- A position is held exactly while the last trade is open. -/
theorem position_eq_long_iff_getLast? {r : TradeRecord} :
    r.position = .long ↔ ∃ t, r.trades.getLast? = some t ∧ t.isOpen = true := by
  rw [position_eq_long_iff, Option.isSome_iff_exists]
  simp only [openTrade?, Option.filter_eq_some_iff]

/-! ## One order -/

/-- What an order can do to the trades, and whether it is taken: a trade is opened if none is open,
the open one is closed at a bar after its entry, and any other order is refused. -/
inductive OrderStep : Order → Bool → List Trade → List Trade → Prop
  | enter {trades : List Trade} {fill : Fill} (flat : ∀ t, trades.getLast? = some t → t.exit ≠ none) :
      OrderStep (.enter fill) true trades (trades ++ [⟨fill, none⟩])
  | exit {earlier : List Trade} {entry fill : Fill} (later : entry.index < fill.index) :
      OrderStep (.exit fill) true (earlier ++ [⟨entry, none⟩]) (earlier ++ [⟨entry, some fill⟩])
  | refuseEnter {earlier : List Trade} {entry fill : Fill} :
      OrderStep (.enter fill) false (earlier ++ [⟨entry, none⟩]) (earlier ++ [⟨entry, none⟩])
  | refuseExit {trades : List Trade} {fill : Fill}
      (early : ∀ t, trades.getLast? = some t → t.exit = none → fill.index ≤ t.entry.index) :
      OrderStep (.exit fill) false trades trades

theorem orderStep_fill (r : TradeRecord) (order : Order) :
    OrderStep order (r.fill? order).isSome r.trades (r.fill order).trades := by
  rcases ho : r.openTrade? with _ | t
  · have flat := openTrade?_eq_none_iff.1 ho
    cases order with
    | enter fill =>
      simp only [TradeRecord.fill, fill?, enter?, ho, Option.isSome_some, Option.getD_some]
      exact .enter flat
    | exit fill =>
      simp only [TradeRecord.fill, fill?, exit?, ho, Option.isSome_none, Option.getD_none]
      exact .refuseExit fun t ht hx => absurd hx (flat t ht)
  · obtain ⟨⟨earlier, hr⟩, hx⟩ := openTrade?_eq_some_iff.1 ho
    obtain ⟨entry, exit⟩ := t
    cases hx
    cases order with
    | enter fill =>
      simp only [TradeRecord.fill, fill?, enter?, ho, Option.isSome_none, Option.getD_none, hr]
      exact .refuseEnter
    | exit fill =>
      simp only [TradeRecord.fill, fill?, exit?, ho]
      by_cases later : entry.index < fill.index
      · rw [if_pos later, Option.isSome_some, Option.getD_some, hr, List.dropLast_concat]
        exact .exit later
      · rw [if_neg later, Option.isSome_none, Option.getD_none, hr]
        refine .refuseExit fun t ht _ => ?_
        rw [List.getLast?_concat] at ht
        cases ht
        exact Nat.le_of_not_lt later

@[simp] theorem quantity_fill (r : TradeRecord) (order : Order) :
    (r.fill order).quantity = r.quantity := by
  cases order with
  | enter fill =>
    simp only [TradeRecord.fill, fill?, enter?]
    split <;> rfl
  | exit fill =>
    simp only [TradeRecord.fill, fill?, exit?]
    split
    · split <;> rfl
    · rfl

/-! ## Several orders -/

/-- The record after several orders. -/
def fillAll (r : TradeRecord) (orders : List Order) : TradeRecord :=
  orders.foldl fill r

theorem fillAll_cons (r : TradeRecord) (order : Order) (rest : List Order) :
    r.fillAll (order :: rest) = (r.fill order).fillAll rest := rfl

/-- The orders that are taken, each by the record that it meets. -/
def taken (r : TradeRecord) : List Order → List Order
  | [] => []
  | order :: rest => (if (r.fill? order).isSome then [order] else []) ++ (r.fill order).taken rest

theorem quantity_fillAll : ∀ (orders : List Order) (r : TradeRecord),
    (r.fillAll orders).quantity = r.quantity
  | [], _ => rfl
  | order :: rest, r => by rw [fillAll_cons, quantity_fillAll rest, quantity_fill]

/-! ## Open and closed trades -/

/-- Only the last trade may be open, and every exit comes after its entry. -/
structure SoundTrades (trades : List Trade) : Prop where
  closed : ∀ t ∈ trades.dropLast, t.isClosed = true
  forward : ∀ t ∈ trades, ∀ exit, t.exit = some exit → t.entry.index < exit.index

namespace SoundTrades

theorem nil : SoundTrades [] := ⟨nofun, nofun⟩

/-- Without an open trade at the end all trades are closed. -/
theorem closed_of_flat {trades : List Trade} (h : SoundTrades trades)
    (flat : ∀ t, trades.getLast? = some t → t.exit ≠ none) : ∀ t ∈ trades, t.isClosed = true := by
  rcases List.eq_nil_or_concat trades with rfl | ⟨earlier, u, rfl⟩
  · exact nofun
  · rw [List.concat_eq_append] at h flat ⊢
    have closed := h.closed
    rw [List.dropLast_concat] at closed
    rw [List.forall_mem_append, List.forall_mem_singleton]
    exact ⟨closed, Option.isSome_iff_ne_none.2 (flat u List.getLast?_concat)⟩

theorem step {before after : List Trade} {order : Order} {ok : Bool} (h : SoundTrades before)
    (step : OrderStep order ok before after) : SoundTrades after := by
  cases step with
  | @enter _ fill flat =>
    refine ⟨?_, ?_⟩
    · rw [List.dropLast_concat]
      exact h.closed_of_flat flat
    · rw [List.forall_mem_append, List.forall_mem_singleton]
      exact ⟨h.forward, nofun⟩
  | @exit earlier entry fill later =>
    obtain ⟨closed, forward⟩ := h
    rw [List.dropLast_concat] at closed
    rw [List.forall_mem_append] at forward
    refine ⟨?_, ?_⟩
    · rw [List.dropLast_concat]
      exact closed
    · rw [List.forall_mem_append, List.forall_mem_singleton]
      refine ⟨forward.1, ?_⟩
      rintro x ⟨⟩
      exact later
  | refuseEnter => exact h
  | refuseExit _ => exact h

theorem fillAll : ∀ (orders : List Order) {r : TradeRecord}, SoundTrades r.trades →
    SoundTrades (r.fillAll orders).trades
  | [], _, h => h
  | order :: rest, r, h => fillAll rest (h.step (orderStep_fill r order))

end SoundTrades

/-! ## What is never changed -/

/-- The trades of a record that went on: each one is still at its place with its entry, and is as it
was if it was closed. -/
def Extends (before after : List Trade) : Prop :=
  ∀ (k : ℕ) (t : Trade), before[k]? = some t →
    ∃ t', after[k]? = some t' ∧ t'.entry = t.entry ∧ (t.isClosed = true → t' = t)

namespace Extends

theorem refl (trades : List Trade) : Extends trades trades :=
  fun _ t ht => ⟨t, ht, rfl, fun _ => rfl⟩

theorem trans {before middle after : List Trade} (h : Extends before middle)
    (h' : Extends middle after) : Extends before after := by
  intro k t ht
  obtain ⟨u, hu, entry, same⟩ := h k t ht
  obtain ⟨v, hv, entry', same'⟩ := h' k u hu
  refine ⟨v, hv, entry'.trans entry, fun closed => ?_⟩
  cases same closed
  exact same' closed

theorem of_step {before after : List Trade} {order : Order} {ok : Bool}
    (step : OrderStep order ok before after) : Extends before after := by
  cases step with
  | enter _ =>
    intro k t ht
    obtain ⟨hk, -⟩ := List.getElem?_eq_some_iff.1 ht
    exact ⟨t, by rw [List.getElem?_append_left hk, ht], rfl, fun _ => rfl⟩
  | @exit earlier entry fill _ =>
    intro k t ht
    rcases Nat.lt_or_ge k earlier.length with hk | hk
    · rw [List.getElem?_append_left hk] at ht
      exact ⟨t, by rw [List.getElem?_append_left hk, ht], rfl, fun _ => rfl⟩
    · rw [List.getElem?_append_right hk, List.getElem?_singleton] at ht
      split at ht
      · rename_i hk'
        cases ht
        refine ⟨⟨entry, some fill⟩, ?_, rfl, nofun⟩
        rw [List.getElem?_append_right hk, List.getElem?_singleton, if_pos hk']
      · cases ht
  | refuseEnter => exact refl _
  | refuseExit _ => exact refl _

theorem fillAll : ∀ (orders : List Order) (r : TradeRecord),
    Extends r.trades (r.fillAll orders).trades
  | [], r => refl r.trades
  | order :: rest, r => (of_step (orderStep_fill r order)).trans (fillAll rest _)

end Extends

/-! ## How many trades -/

/-- A trade more for an entry that is taken, an exit more for an exit that is taken. -/
theorem counts_of_step {before after : List Trade} {order : Order} {ok : Bool}
    (step : OrderStep order ok before after) :
    after.length = before.length + (if ok then [order] else []).countP Order.isEnter ∧
      (after.filter Trade.isClosed).length = (before.filter Trade.isClosed).length +
        (if ok then [order] else []).countP Order.isExit := by
  cases step <;> simp [List.filter_cons, Order.isEnter, Order.isExit, Trade.isClosed]

theorem counts_fillAll : ∀ (orders : List Order) (r : TradeRecord),
    (r.fillAll orders).trades.length = r.trades.length + (r.taken orders).countP Order.isEnter ∧
      (r.fillAll orders).completedCount =
        r.completedCount + (r.taken orders).countP Order.isExit
  | [], _ => ⟨rfl, rfl⟩
  | order :: rest, r => by
    obtain ⟨trades, completed⟩ := counts_of_step (orderStep_fill r order)
    obtain ⟨ih, ih'⟩ := counts_fillAll rest (r.fill order)
    change (r.fill order).completedCount = r.completedCount + _ at completed
    rw [fillAll_cons, taken, List.countP_append, List.countP_append]
    exact ⟨by omega, by omega⟩

/-- One trade is missing an exit while a position is held, and none otherwise. -/
theorem SoundTrades.length_eq {r : TradeRecord} (h : SoundTrades r.trades) :
    r.trades.length = r.completedCount + if r.position = .long then 1 else 0 := by
  unfold completedCount completed
  rcases ho : r.openTrade? with _ | t
  · have flat : r.position ≠ .long := by simp [position_eq_long_iff, ho]
    have closed := h.closed_of_flat (openTrade?_eq_none_iff.1 ho)
    rw [if_neg flat, List.filter_eq_self.2 closed, Nat.add_zero]
  · have long : r.position = .long := by simp [position_eq_long_iff, ho]
    obtain ⟨⟨earlier, hr⟩, hx⟩ := openTrade?_eq_some_iff.1 ho
    have closed := h.closed
    rw [hr, List.dropLast_concat] at closed
    have last : t.isClosed = false := by simp [Trade.isClosed, hx]
    rw [if_pos long, hr, List.filter_append, List.filter_eq_self.2 closed]
    simp [last]

/-! ## Orders whose bars never decrease -/

/-- One trade is over when the other is entered, at the same bar at the latest. -/
def EndsBy (t u : Trade) : Prop :=
  ∃ exit, t.exit = some exit ∧ exit.index ≤ u.entry.index

/-- The trades follow one another, and up to the bar all their exits have happened. -/
structure SettledBy (index : ℕ) (trades : List Trade) : Prop where
  chain : trades.IsChain EndsBy
  past : ∀ t ∈ trades, ∀ exit, t.exit = some exit → exit.index ≤ index

namespace SettledBy

theorem mono {i j : ℕ} {trades : List Trade} (h : SettledBy i trades) (hij : i ≤ j) :
    SettledBy j trades :=
  ⟨h.chain, fun t ht exit hx => Nat.le_trans (h.past t ht exit hx) hij⟩

theorem step {before after : List Trade} {order : Order} {ok : Bool}
    (h : SettledBy order.index before) (step : OrderStep order ok before after) :
    SettledBy order.index after := by
  cases step with
  | @enter _ fill flat =>
    refine ⟨List.isChain_append.2 ⟨h.chain, List.isChain_singleton _, ?_⟩, ?_⟩
    · rintro t ht u ⟨⟩
      obtain ⟨exit, hx⟩ := Option.ne_none_iff_exists'.1 (flat t ht)
      exact ⟨exit, hx, h.past t (List.mem_of_getLast? ht) exit hx⟩
    · rw [List.forall_mem_append, List.forall_mem_singleton]
      exact ⟨h.past, nofun⟩
  | @exit earlier entry fill later =>
    obtain ⟨chain, past⟩ := h
    obtain ⟨chain, -, last⟩ := List.isChain_append.1 chain
    rw [List.forall_mem_append] at past
    refine ⟨List.isChain_append.2 ⟨chain, List.isChain_singleton _, ?_⟩, ?_⟩
    · -- the trade that is closed keeps the entry that the one before it comes before
      rintro t ht u ⟨⟩
      exact last t ht ⟨entry, none⟩ rfl
    · rw [List.forall_mem_append, List.forall_mem_singleton]
      refine ⟨past.1, ?_⟩
      rintro x ⟨⟩
      exact Nat.le_refl _
  | refuseEnter => exact h
  | refuseExit _ => exact h

theorem fillAll : ∀ {orders : List Order} {i : ℕ} {r : TradeRecord}, SettledBy i r.trades →
    (orders.map Order.index).Pairwise (· ≤ ·) → (∀ order ∈ orders, i ≤ order.index) →
    (r.fillAll orders).trades.IsChain EndsBy
  | [], _, _, h, _, _ => h.chain
  | order :: rest, i, r, h, ascending, later => by
    rw [List.map_cons, List.pairwise_cons, List.forall_mem_map] at ascending
    have next := (h.mono (later order List.mem_cons_self)).step (orderStep_fill r order)
    rw [fillAll_cons]
    exact fillAll next ascending.2 ascending.1

end SettledBy

/-! ## What a record shows of its orders -/

/-- What a record shows after orders of which some were taken: no trade but the last is open, there is
one for each entry that was taken, and one of them is closed for each exit that was taken. -/
structure Reflects (quantity : Decimal) (orders taken : List Order) (r : TradeRecord) : Prop where
  quantity_eq : r.quantity = quantity
  closed : ∀ t ∈ r.trades.dropLast, t.isClosed = true
  openOrLeft : ∀ t ∈ r.trades, t.isOpen = true ∧ t.exit = none ∨
    t.isClosed = true ∧ ∃ exit, t.exit = some exit ∧ t.entry.index < exit.index
  long_iff : r.position = .long ↔ ∃ t, r.trades.getLast? = some t ∧ t.isOpen = true
  entries : r.trades.length = taken.countP Order.isEnter
  exits : r.completedCount = taken.countP Order.isExit
  balance : taken.countP Order.isEnter =
    taken.countP Order.isExit + if r.position = .long then 1 else 0
  inOrder : (orders.map Order.index).Pairwise (· ≤ ·) → r.trades.IsChain EndsBy

theorem reflects_fillAll (quantity : Decimal) (orders : List Order) :
    ((empty quantity).fillAll orders).Reflects quantity orders ((empty quantity).taken orders) := by
  have sound : SoundTrades ((empty quantity).fillAll orders).trades :=
    SoundTrades.fillAll orders (r := empty quantity) .nil
  obtain ⟨entries, exits⟩ := counts_fillAll orders (empty quantity)
  have entries := entries.trans (Nat.zero_add _)
  have exits := exits.trans (Nat.zero_add _)
  exact {
    quantity_eq := quantity_fillAll orders (empty quantity)
    closed := sound.closed
    openOrLeft := fun t ht => by
      rcases hx : t.exit with _ | exit
      · exact .inl ⟨by simp [Trade.isOpen, hx], rfl⟩
      · exact .inr ⟨by simp [Trade.isClosed, hx], exit, rfl, sound.forward t ht exit hx⟩
    long_iff := position_eq_long_iff_getLast?
    entries := entries
    exits := exits
    balance := by rw [← entries, ← exits, sound.length_eq]
    inOrder := fun ascending =>
      SettledBy.fillAll (i := 0) (r := empty quantity) ⟨List.isChain_nil, nofun⟩ ascending
        fun _ _ => Nat.zero_le _ }

/-- Whatever the orders, a record that starts without trades reflects them. An order that is refused
changes nothing, one that is taken opens a trade at the end or fills the exit of the last trade, and
whatever orders follow change neither the quantity nor a trade that is closed. -/
theorem bookkeeping_of_orders (quantity : Decimal) (orders : List Order) :
    let r := (empty quantity).fillAll orders
    r.Reflects quantity orders ((empty quantity).taken orders) ∧
      (∀ order, (r.fill? order = none → r.fill order = r) ∧
        OrderStep order (r.fill? order).isSome r.trades (r.fill order).trades) ∧
      ∀ more, (r.fillAll more).quantity = r.quantity ∧ Extends r.trades (r.fillAll more).trades := by
  intro r
  exact ⟨reflects_fillAll quantity orders, fun order => ⟨fill_of_fill?, orderStep_fill r order⟩,
    fun more => ⟨quantity_fillAll more r, Extends.fillAll more r⟩⟩

/-- A trade may be entered at the bar at which the one before it was left, but not be left at the bar
of its own entry. -/
theorem bookkeeping_of_crowded_orders :
    let orders : List Order := [.exit ⟨0, .one⟩, .enter ⟨1, .one⟩, .enter ⟨1, .hundred⟩,
      .exit ⟨1, .hundred⟩, .exit ⟨3, .hundred⟩, .enter ⟨3, .one⟩]
    let r : TradeRecord := ⟨.one, [⟨⟨1, .one⟩, some ⟨3, .hundred⟩⟩, ⟨⟨3, .one⟩, none⟩]⟩
    (empty .one).fillAll orders = r ∧ (orders.map Order.index).Pairwise (· ≤ ·) ∧
      r.Reflects .one orders [.enter ⟨1, .one⟩, .exit ⟨3, .hundred⟩, .enter ⟨3, .one⟩] ∧
      r.trades.IsChain EndsBy := by
  intro orders r
  have run : (empty .one).fillAll orders = r := by decide +kernel
  have ascending : (orders.map Order.index).Pairwise (· ≤ ·) := by decide
  have reflects := (bookkeeping_of_orders .one orders).1
  rw [run] at reflects
  exact ⟨run, ascending, reflects, reflects.inOrder ascending⟩

end TradeRecord
end Backtest
