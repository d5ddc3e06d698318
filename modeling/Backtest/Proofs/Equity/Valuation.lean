/-
The equity curve bar by bar: `Valuation` says what each of its values is, from the trades alone. The
curve loop keeps a cursor into the trades and takes up the next one only at the bar of its entry,
so it must never be late for one; that is the invariant `Pending`: every trade ahead of the cursor
is entered after the trade being held is over, and not before the current bar.
-/
import Backtest.Proofs.Equity.Step
import Backtest.Proofs.Trade.Schedule

namespace Backtest

/-- The equity just before a bar: the value at the bar before, at first one unit of capital. -/
def equityBefore? (curve : List Decimal) : Nat → Option Decimal
  | 0 => some .one
  | index + 1 => curve[index]?

/-- The bars of the trade, from its entry to its exit or, without one, to the end of the series. -/
def Trade.Spans (t : Trade) (lastIndex index : Nat) : Prop :=
  t.entry.index ≤ index ∧ index ≤ t.lastBar lastIndex

/-- The curve over the closes that shows the given trades: at the bars of a trade, the equity before
its entry times the close, rounded, over the entry price, rounded; at any other bar no change. -/
structure Valuation (closes : List Decimal) (shown : Trade → Prop) (curve : List Decimal) : Prop where
  length : curve.length = closes.length
  held : ∀ t, shown t → ∀ index, t.Spans (closes.length - 1) index →
    ∃ base close grown value, equityBefore? curve t.entry.index = some base ∧
      closes[index]? = some close ∧ base.mul close = .ok grown ∧
      grown.div t.entry.price = .ok value ∧ curve[index]? = some value
  flat : ∀ index < closes.length, (∀ t, shown t → ¬ t.Spans (closes.length - 1) index) →
    curve[index]? = equityBefore? curve index

theorem equityBefore?_append {xs ys : List Decimal} {index : Nat} (h : index ≤ xs.length) :
    equityBefore? (xs ++ ys) index = equityBefore? xs index := by
  cases index with
  | zero => rfl
  | succ index =>
    unfold equityBefore?
    exact List.getElem?_append_left h

theorem equityBefore?_concat (xs : List Decimal) (x : Decimal) :
    equityBefore? (xs ++ [x]) (xs ++ [x]).length = some x := by
  simp [equityBefore?]

theorem Trade.lastBar_of_exit {t : Trade} {exit : Fill} (h : t.exit = some exit) (lastIndex : Nat) :
    t.lastBar lastIndex = exit.index := by
  unfold lastBar
  rw [h]

/-! ## What the loop has before it -/

/-- The trades at and after a bar: the one being held, not over yet, and those ahead, each entered
after the one before is over. -/
structure Pending (length lastIndex index : Nat) (held : Option Holding) (ahead : List Trade) :
    Prop where
  current : ∀ h, held = some h → index ≤ h.lastBar ∧ h.lastBar < length
  later : ∀ t ∈ ahead, index ≤ t.entry.index
  after : ∀ h, held = some h → ∀ t ∈ ahead, h.lastBar < t.entry.index
  forward : ∀ t ∈ ahead, t.entry.index ≤ t.lastBar lastIndex ∧ t.lastBar lastIndex < length
  apart : ahead.Pairwise fun t u => t.lastBar lastIndex < u.entry.index

namespace Pending

variable {length lastIndex index : Nat} {ahead : List Trade}

/-- Going on from a bar without a trade. -/
theorem next_flat (p : Pending length lastIndex index none ahead)
    (h : ∀ t, ahead.head? = some t → t.entry.index ≠ index) :
    Pending length lastIndex (index + 1) none ahead := by
  refine ⟨fun _ e => (by cases e), fun t ht => ?_, fun _ e => (by cases e), p.forward, p.apart⟩
  rcases ahead with _ | ⟨u, later⟩
  · cases ht
  · have hu := p.later u (List.mem_cons_self ..)
    have hne := h u rfl
    rcases List.mem_cons.1 ht with rfl | ht
    · omega
    · have := (List.pairwise_cons.1 p.apart).1 t ht
      have := (p.forward u (List.mem_cons_self ..)).1
      omega

/-- Going on from a bar at which a trade is held, which may be its last. -/
theorem next_held {h : Holding} (p : Pending length lastIndex index (some h) ahead) :
    Pending length lastIndex (index + 1) (h.after index) ahead := by
  have hc := p.current h rfl
  unfold Holding.after
  refine ⟨fun h' e => ?_, fun t ht => ?_, fun h' e => ?_, p.forward, p.apart⟩
  · split at e
    · cases e
    · cases e
      exact ⟨by omega, hc.2⟩
  · have := p.after h rfl t ht
    omega
  · split at e
    · cases e
    · cases e
      exact p.after h rfl

/-- Taking up the next trade at its entry. -/
theorem take_up {t : Trade} {later : List Trade}
    (p : Pending length lastIndex index none (t :: later)) (he : t.entry.index = index)
    (equity : Decimal) :
    Pending length lastIndex index (some (t.holding lastIndex equity)) later := by
  obtain ⟨apart, rest⟩ := List.pairwise_cons.1 p.apart
  have ht := p.forward t (List.mem_cons_self ..)
  refine ⟨fun h e => ?_, fun u hu => p.later u (List.mem_cons_of_mem _ hu), fun h e u hu => ?_,
    fun u hu => p.forward u (List.mem_cons_of_mem _ hu), rest⟩
  · cases e
    exact ⟨he ▸ ht.1, ht.2⟩
  · cases e
    exact apart u hu

theorem step {equity close value : Decimal} {held held' : Option Holding} {ahead' : List Trade}
    (p : Pending length lastIndex index held ahead)
    (s : CurveStep lastIndex index equity close held ahead value held' ahead') :
    Pending length lastIndex (index + 1) held' ahead' := by
  cases s with
  | flat none_here => exact p.next_flat none_here
  | held => exact p.next_held
  | enter here => exact (p.take_up here equity).next_held

end Pending

/-! ## What the loop makes of it -/

section Shown

variable {closes curve : List Decimal} {lastIndex index : Nat} {ahead : List Trade}

/-- The curve has the value of the held trade at the bar. -/
def ShowsAt (closes curve : List Decimal) (h : Holding) (index : Nat) : Prop :=
  ∃ close value, closes[index]? = some close ∧ h.value close = .ok value ∧ curve[index]? = some value

/-- The curve from a bar on shows the trade being held and those ahead, and nothing else. -/
structure ShownFrom (closes curve : List Decimal) (lastIndex index : Nat) (held : Option Holding)
    (ahead : List Trade) : Prop where
  current : ∀ h, held = some h → ∀ i, index ≤ i → i ≤ h.lastBar → ShowsAt closes curve h i
  next : ∀ t ∈ ahead, ∃ base, equityBefore? curve t.entry.index = some base ∧
    ∀ i, t.Spans lastIndex i → ShowsAt closes curve (t.holding lastIndex base) i
  flat : ∀ i, index ≤ i → i < closes.length → (∀ h, held = some h → h.lastBar < i) →
    (∀ t ∈ ahead, ¬ t.Spans lastIndex i) → curve[i]? = equityBefore? curve i

namespace ShownFrom

theorem of_flat (s : ShownFrom closes curve lastIndex (index + 1) none ahead)
    (h : curve[index]? = equityBefore? curve index) :
    ShownFrom closes curve lastIndex index none ahead := by
  refine ⟨fun _ e => (by cases e), s.next, fun i hi hl hh hf => ?_⟩
  rcases Nat.eq_or_lt_of_le hi with rfl | hi
  · exact h
  · exact s.flat i hi hl hh hf

theorem of_held {h : Holding} (hl : index ≤ h.lastBar)
    (s : ShownFrom closes curve lastIndex (index + 1) (h.after index) ahead)
    (shows : ShowsAt closes curve h index) :
    ShownFrom closes curve lastIndex index (some h) ahead := by
  refine ⟨fun h' e i hi hil => ?_, s.next, fun i hi hlen hh hf => ?_⟩
  · cases e
    rcases Nat.eq_or_lt_of_le hi with rfl | hi
    · exact shows
    · exact s.current h (if_neg (by omega)) i hi hil
  · have hi' := hh h rfl
    refine s.flat i (by omega) hlen (fun h' e => ?_) hf
    unfold Holding.after at e
    split at e
    · cases e
    · cases e
      exact hi'

theorem of_take_up {t : Trade} {later : List Trade} {equity : Decimal}
    (he : t.entry.index = index) (hb : equityBefore? curve index = some equity)
    (s : ShownFrom closes curve lastIndex index (some (t.holding lastIndex equity)) later) :
    ShownFrom closes curve lastIndex index none (t :: later) := by
  refine ⟨fun _ e => (by cases e), fun u hu => ?_, fun i hi hl _ hf => ?_⟩
  · rcases List.mem_cons.1 hu with rfl | hu
    · exact ⟨equity, he ▸ hb, fun i hi => s.current _ rfl i (he ▸ hi.1) hi.2⟩
    · exact s.next u hu
  · refine s.flat i hi hl (fun h e => ?_) fun u hu => hf u (List.mem_cons_of_mem _ hu)
    cases e
    have := hf t (List.mem_cons_self ..)
    unfold Trade.Spans at this
    show t.lastBar lastIndex < i
    omega

/-- With the value of a bar in the curve, what is shown from the next bar on is shown from it on. -/
theorem step {equity close value : Decimal} {held held' : Option Holding} {ahead' : List Trade}
    (p : Pending closes.length lastIndex index held ahead)
    (bar : CurveStep lastIndex index equity close held ahead value held' ahead')
    (hb : equityBefore? curve index = some equity) (hc : closes[index]? = some close)
    (hv : curve[index]? = some value)
    (s : ShownFrom closes curve lastIndex (index + 1) held' ahead') :
    ShownFrom closes curve lastIndex index held ahead := by
  cases bar with
  | flat =>
    refine s.of_flat ?_
    rw [hv, hb]
  | held valued => exact s.of_held (p.current _ rfl).1 ⟨close, value, hc, valued, hv⟩
  | enter here valued =>
    have shows := s.of_held ((p.take_up here equity).current _ rfl).1 ⟨close, value, hc, valued, hv⟩
    exact shows.of_take_up here hb

end ShownFrom

/-- The curve from a bar on. The lists `seen` and `before` are the closes and the values up to it. -/
theorem shownFrom_equityFrom : ∀ (rest seen before : List Decimal) {index : Nat}
    {values : List Decimal} {equity : Decimal} {held : Option Holding} {ahead : List Trade},
    seen ++ rest = closes → seen.length = index → before.length = index →
    equityBefore? before index = some equity → Pending closes.length lastIndex index held ahead →
    equityFrom lastIndex index equity held ahead rest = .ok values →
    values.length = rest.length ∧ ShownFrom closes (before ++ values) lastIndex index held ahead
  | [], seen, before, index, values, equity, held, ahead, hc, hs, _, _, p, h => by
    cases h
    rw [List.append_nil] at hc
    subst hc
    refine ⟨rfl, fun h e i hi hil => ?_, fun t ht => ?_, fun i hi hil _ _ => ?_⟩
    · have := (p.current h e).2
      omega
    · have := p.later t ht
      have := p.forward t ht
      omega
    · omega
  | close :: rest, seen, before, index, values, equity, held, ahead, hc, hs, hb, he, p, h => by
    obtain ⟨value, held', ahead', values', bar, hr, rfl⟩ := equityFrom_cons_eq_ok_iff.1 h
    have here : closes[index]? = some close := by
      rw [← hc, List.getElem?_append_right (Nat.le_of_eq hs), hs, Nat.sub_self]
      rfl
    have last : (before ++ value :: values')[index]? = some value := by
      rw [List.getElem?_append_right (Nat.le_of_eq hb), hb, Nat.sub_self]
      rfl
    have start : equityBefore? (before ++ value :: values') index = some equity := by
      rw [equityBefore?_append (Nat.le_of_eq hb.symm), he]
    have ih := shownFrom_equityFrom rest (seen ++ [close]) (before ++ [value])
      (by rw [List.append_assoc]; exact hc) (by simp [hs]) (by simp [hb])
      (by rw [← hb]; simpa using equityBefore?_concat before value) (p.step bar) hr
    rw [List.append_assoc] at ih
    obtain ⟨length, later⟩ := ih
    refine ⟨?_, later.step p bar start here last⟩
    rw [List.length_cons, length, List.length_cons]

end Shown

/-! ## The curve of a record -/

theorem TradeRecord.mem_shown_iff {r : TradeRecord} {policy : OpenPositionPolicy} {t : Trade} :
    t ∈ r.shown policy ↔ t ∈ r.trades ∧ (t.exit ≠ none ∨ policy = .markToMarket) := by
  unfold shown
  rw [List.mem_filter, Bool.or_eq_true, Trade.isClosed, Option.isSome_iff_ne_none, beq_iff_eq]

/-- Trades in sequence are pending before the first bar, all of them or some. -/
theorem TradeSequence.pending {closes : List Decimal} {trades shown : List Trade}
    (h : TradeSequence closes trades) (hs : shown.Sublist trades) :
    Pending closes.length (closes.length - 1) 0 none shown := by
  refine ⟨fun _ e => (by cases e), fun _ _ => Nat.zero_le _, fun _ e => (by cases e), ?_, ?_⟩
  · intro t ht
    have ht := hs.subset ht
    have hl := h.entry_lt ht
    rcases hx : t.exit with _ | x
    · unfold Trade.lastBar
      rw [hx]
      show t.entry.index ≤ closes.length - 1 ∧ closes.length - 1 < closes.length
      omega
    · rw [Trade.lastBar_of_exit hx]
      exact ⟨Nat.le_of_lt (h.forward t ht x hx), h.exit_lt ht hx⟩
  · refine (h.pairwise.sublist hs).imp fun {t u} htu => ?_
    obtain ⟨x, hx, hlt⟩ := htu
    rw [Trade.lastBar_of_exit hx]
    exact hlt

theorem valuation_of_equityFrom {closes curve : List Decimal} {trades shown : List Trade}
    (ht : TradeSequence closes trades) (hs : shown.Sublist trades)
    (h : equityFrom (closes.length - 1) 0 .one none shown closes = .ok curve) :
    Valuation closes (· ∈ shown) curve := by
  obtain ⟨length, -, next, flat⟩ := shownFrom_equityFrom closes [] []
    rfl rfl rfl rfl (ht.pending hs) h
  refine ⟨length, fun t hm i hi => ?_, fun i hi none => ?_⟩
  · obtain ⟨base, hb, shows⟩ := next t hm
    obtain ⟨close, value, hc, hv, hcurve⟩ := shows i hi
    obtain ⟨grown, hg, hd⟩ := Holding.value_eq_ok_iff.1 hv
    exact ⟨base, close, grown, value, hb, hc, hg, hd, hcurve⟩
  · exact flat i (Nat.zero_le _) hi (fun _ e => (by cases e)) none

/-- The equity curve of a simulation, whenever it can be computed: every closed trade is valued over
its bars, and the open one too if it is marked to market; nowhere else does the curve change. -/
theorem valuation_of_equityCurve {signals : Signals} {cash : Decimal}
    {policy : OpenPositionPolicy} {closes curve : List Decimal} {r : TradeRecord}
    (hr : TradeRecord.simulate signals cash closes = .ok r)
    (hc : equityCurve policy r closes = .ok curve) :
    Valuation closes (fun t => t ∈ r.trades ∧ (t.exit ≠ none ∨ policy = .markToMarket)) curve := by
  have sequence := (TradeRecord.greedySchedule_of_simulate hr).toTradeSequence
  have valued : Valuation closes (· ∈ r.shown policy) curve :=
    valuation_of_equityFrom sequence List.filter_sublist hc
  simpa only [TradeRecord.mem_shown_iff] using valued

/-- One trade closed without a gain, one open at the last bar, marked to market. -/
theorem valuation_of_two_trades :
    let signals : Signals := ⟨fun _ => true, fun index => index == 2⟩
    let closes : List Decimal := [.one, .hundred, .one, .hundred]
    let r : TradeRecord := ⟨.hundred, [⟨⟨0, .one⟩, some ⟨2, .one⟩⟩, ⟨⟨3, .hundred⟩, none⟩]⟩
    TradeRecord.simulate signals .hundred closes = .ok r ∧
      ∃ curve, equityCurve .markToMarket r closes = .ok curve ∧
        curve.map Decimal.toRat = [1, 100, 1, 1] ∧
        Valuation closes
          (fun t => t ∈ r.trades ∧ (t.exit ≠ none ∨ OpenPositionPolicy.markToMarket = .markToMarket))
          curve := by
  intro signals closes r
  have hr : TradeRecord.simulate signals .hundred closes = .ok r := by decide +kernel
  have values : (equityCurve .markToMarket r closes).toOption.map (·.map Decimal.toRat) =
      some [1, 100, 1, 1] := by decide +kernel
  obtain ⟨curve, hc, shape⟩ := exists_of_toOption_map values
  exact ⟨hr, curve, hc, shape, valuation_of_equityCurve hr hc⟩

end Backtest
