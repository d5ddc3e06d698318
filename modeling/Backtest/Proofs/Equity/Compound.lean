/-
What closed trades make of one unit of capital. At the exit of a trade the curve has the equity
before its entry, times the exit price, over the entry price, and between two trades it does not
change; so its last value is the left fold of these steps over the trades in order (`compound`). The
closes between entry and exit leave no trace in it.
-/
import Backtest.Proofs.Equity.Valuation

namespace Backtest

/-- The entry and the exit price of a closed trade. -/
def Trade.roundTrip? (t : Trade) : Option (Decimal × Decimal) :=
  t.exit.map fun exit => (t.entry.price, exit.price)

/-- The entry and exit prices of the closed trades, in order. -/
def TradeRecord.roundTrips (r : TradeRecord) : List (Decimal × Decimal) :=
  r.trades.filterMap Trade.roundTrip?

/-- The equity after round trips, one after another: each multiplies by its exit price and then
divides by its entry price. -/
def compound (equity : Decimal) (trips : List (Decimal × Decimal)) : Except Fault Decimal :=
  trips.foldlM (fun equity trip => do
    let grown ← equity.mul trip.2
    grown.div trip.1) equity

/-- The step of one round trip. -/
theorem compound_cons_eq_ok_iff {equity entry exit last : Decimal}
    {trips : List (Decimal × Decimal)} :
    compound equity ((entry, exit) :: trips) = .ok last ↔ ∃ grown value,
      equity.mul exit = .ok grown ∧ grown.div entry = .ok value ∧
        compound value trips = .ok last := by
  unfold compound
  rw [List.foldlM_cons]
  simp only [bind_eq_ok_iff]
  constructor
  · rintro ⟨value, ⟨grown, hg, hv⟩, h⟩
    exact ⟨grown, value, hg, hv, h⟩
  · rintro ⟨grown, value, hg, hv, h⟩
    exact ⟨value, ⟨grown, hg, hv⟩, h⟩

/-! ## Trades on a curve -/

section Curve

variable {closes curve : List Decimal} {shown : Trade → Prop}

/-- Over bars at which no trade is shown the equity stays what it was. -/
theorem Valuation.equityBefore?_of_idle (v : Valuation closes shown curve) {a : Nat} :
    ∀ {b : Nat}, a ≤ b → b ≤ closes.length →
      (∀ i, a ≤ i → i < b → ∀ t, shown t → ¬ t.Spans (closes.length - 1) i) →
      equityBefore? curve b = equityBefore? curve a
  | 0, ha, _, _ => by rw [Nat.le_zero.1 ha]
  | b + 1, ha, hb, idle => by
    rcases Nat.eq_or_lt_of_le ha with rfl | ha
    · rfl
    · have ha : a ≤ b := Nat.le_of_lt_succ ha
      have before := equityBefore?_of_idle v ha (Nat.le_of_succ_le hb)
        fun i hi hib => idle i hi (Nat.lt_succ_of_lt hib)
      exact (v.flat b hb (idle b ha (Nat.lt_succ_self b))).trans before

/-- At the end of the curve the equity is that of the trades still to come at a bar, compounded from
the equity there. -/
theorem Valuation.compound_eq (v : Valuation closes shown curve) : ∀ (trades : List Trade) {a : Nat}
    {equity : Decimal}, a ≤ closes.length → equityBefore? curve a = some equity →
    (∀ t, shown t → t ∈ trades ∨ t.lastBar (closes.length - 1) < a) →
    (∀ t ∈ trades, shown t ∧ a ≤ t.entry.index) → trades.Pairwise Trade.Precedes →
    (∀ t ∈ trades, ∃ exit, t.exit = some exit ∧ t.entry.index < exit.index ∧
      closes[exit.index]? = some exit.price) →
    ∃ last, compound equity (trades.filterMap Trade.roundTrip?) = .ok last ∧
      equityBefore? curve closes.length = some last
  | [], a, equity, ha, he, past, _, _, _ => by
    have stays := v.equityBefore?_of_idle ha (Nat.le_refl _) fun i hi _ t ht spans => by
      have before := (past t ht).resolve_left List.not_mem_nil
      have := spans.2
      omega
    exact ⟨equity, rfl, by rw [stays, he]⟩
  | t :: later, a, equity, ha, he, past, ahead, order, closed => by
    obtain ⟨first, order⟩ := List.pairwise_cons.1 order
    obtain ⟨⟨ht, hat⟩, ahead⟩ := List.forall_mem_cons.1 ahead
    obtain ⟨⟨x, hx, forward, price⟩, closed⟩ := List.forall_mem_cons.1 closed
    have inside : x.index < closes.length := (List.getElem?_eq_some_iff.1 price).1
    have lastBar := Trade.lastBar_of_exit hx (closes.length - 1)
    have after : ∀ u ∈ later, x.index < u.entry.index := fun u hu => by
      obtain ⟨y, hy, hlt⟩ := first u hu
      rw [hx] at hy
      cases hy
      exact hlt
    -- nothing happens before the entry of the first trade
    have waits := v.equityBefore?_of_idle hat (by omega) fun i hi hie u hu spans => by
      rcases past u hu with hu | hu
      · rcases List.mem_cons.1 hu with rfl | hu
        · exact absurd spans.1 (by omega)
        · have := after u hu
          have := spans.1
          omega
      · have := spans.2
        omega
    obtain ⟨base, close, grown, value, hb, hc, hg, hv, hcurve⟩ := v.held t ht x.index
      ⟨Nat.le_of_lt forward, Nat.le_of_eq lastBar.symm⟩
    rw [waits, he] at hb
    rw [price] at hc
    cases hb
    cases hc
    obtain ⟨last, hlast, hend⟩ := compound_eq v later (a := x.index + 1) (by omega) hcurve
      (fun u hu => by
        rcases past u hu with hu | hu
        · rcases List.mem_cons.1 hu with rfl | hu
          · exact .inr (by omega)
          · exact .inl hu
        · exact .inr (by omega))
      (fun u hu => ⟨(ahead u hu).1, after u hu⟩) order closed
    refine ⟨last, ?_, hend⟩
    have trip : t.roundTrip? = some (t.entry.price, x.price) := by
      unfold Trade.roundTrip?
      rw [hx]
      rfl
    rw [List.filterMap_cons_some trip]
    exact compound_cons_eq_ok_iff.2 ⟨grown, value, hg, hv, hlast⟩

end Curve

/-! ## The curve without the open trade -/

theorem TradeRecord.shown_exclude (r : TradeRecord) : r.shown .exclude = r.completed := by
  unfold shown completed
  refine List.filter_congr fun t _ => ?_
  rw [show (OpenPositionPolicy.exclude == .markToMarket) = false from rfl, Bool.or_false]

theorem TradeRecord.roundTrips_eq (r : TradeRecord) :
    r.roundTrips = r.completed.filterMap Trade.roundTrip? := by
  unfold roundTrips completed
  rw [List.filterMap_filter]
  refine List.filterMap_congr fun t _ => ?_
  unfold Trade.isClosed Trade.roundTrip?
  cases t.exit <;> rfl

/-- Without the open trade the curve ends with one unit of capital after the round trips. -/
theorem compound_roundTrips {r : TradeRecord} {closes curve : List Decimal}
    (sequence : TradeSequence closes r.trades) (h : equityCurve .exclude r closes = .ok curve) :
    compound .one r.roundTrips = .ok (curve.getLast?.getD .one) := by
  have v : Valuation closes (· ∈ r.completed) curve := by
    rw [← TradeRecord.shown_exclude]
    exact valuation_of_equityFrom sequence List.filter_sublist h
  have closed : ∀ t ∈ r.completed, ∃ exit, t.exit = some exit ∧ t.entry.index < exit.index ∧
      closes[exit.index]? = some exit.price := fun t ht => by
    obtain ⟨hm, hc⟩ := List.mem_filter.1 ht
    obtain ⟨exit, hx⟩ := Option.isSome_iff_exists.1 hc
    exact ⟨exit, hx, sequence.forward t hm exit hx, sequence.exitPrice t hm exit hx⟩
  obtain ⟨last, hlast, hend⟩ := v.compound_eq r.completed (Nat.zero_le _) rfl
    (fun t ht => .inl ht) (fun t ht => ⟨ht, Nat.zero_le _⟩)
    (sequence.pairwise.sublist List.filter_sublist) closed
  rw [TradeRecord.roundTrips_eq, hlast]
  rw [← v.length] at hend
  rcases curve with _ | ⟨value, rest⟩
  · exact congrArg _ (Option.some.inj hend).symm
  · rw [List.getLast?_eq_getElem?]
    unfold equityBefore? at hend
    simp only [List.length_cons, Nat.add_sub_cancel] at hend ⊢
    rw [hend]
    rfl

end Backtest
