/-
The two policies for a trade that is open at the last bar, compared on the record of one simulation.
Without such a trade they give the same curve. With one the curves part at its entry: the one that
leaves it out waits from there on, and the one that marks it to market is that of the record with
the trade left at the last bar. So the second goes on where the first stands still, and its drawdown
is no smaller. Reports count closed trades only, under both.
-/
import Backtest.Proofs.Equity.Compound
import Backtest.Proofs.Equity.Drawdown
import Backtest.Proofs.Equity.Figures
import Backtest.Proofs.Equity.Prefix
import Backtest.Proofs.Run.Stages

namespace Backtest

/-- The trade, left at the fill if it is open. -/
def Trade.closeAt (fill : Fill) (t : Trade) : Trade :=
  ⟨t.entry, some (t.exit.getD fill)⟩

/-- The record with its open trade left at the fill. -/
def TradeRecord.closeAt (fill : Fill) (r : TradeRecord) : TradeRecord :=
  ⟨r.quantity, r.trades.map (Trade.closeAt fill)⟩

/-- What the policies make of a trade that is open at the last bar. An exit at that bar leaves it, if
it was not entered there. -/
structure OpenTradeShown (closes : List Decimal) (r : TradeRecord) (t : Trade)
    (excluded marked : List Decimal) : Prop where
  before : excluded.take t.entry.index = marked.take t.entry.index
  waits : ∀ i, t.entry.index ≤ i → i < closes.length →
    excluded[i]? = equityBefore? excluded t.entry.index
  closed : ∀ price, equityCurve .exclude (r.closeAt ⟨closes.length - 1, price⟩) closes = .ok marked
  exit : t.entry.index < closes.length - 1 → ∀ price,
    r.exit? ⟨closes.length - 1, price⟩ = some (r.closeAt ⟨closes.length - 1, price⟩)

/-! ## Leaving the open trade -/

/-- A trade left at the last bar lasts as long as an open one. -/
theorem Trade.lastBar_closeAt (price : Decimal) (lastIndex : Nat) (t : Trade) :
    (t.closeAt ⟨lastIndex, price⟩).lastBar lastIndex = t.lastBar lastIndex := by
  obtain ⟨entry, exit⟩ := t
  cases exit <;> rfl

theorem takeUp_map_closeAt (price : Decimal) (lastIndex index : Nat) (equity : Decimal)
    (held : Option Holding) (ahead : List Trade) :
    takeUp lastIndex index equity held (ahead.map (Trade.closeAt ⟨lastIndex, price⟩)) =
      ((takeUp lastIndex index equity held ahead).1,
        (takeUp lastIndex index equity held ahead).2.map (Trade.closeAt ⟨lastIndex, price⟩)) := by
  rcases held with _ | h
  · rcases ahead with _ | ⟨t, later⟩
    · rfl
    · unfold takeUp
      rw [List.map_cons]
      simp only [Trade.lastBar_closeAt]
      show (if t.entry.index = index then _ else _) = _
      split <;> rfl
  · rfl

/-- The curve reads the entries and the last bars of the trades, and no exit price. -/
theorem equityFrom_map_closeAt (price : Decimal) (lastIndex : Nat) : ∀ (closes : List Decimal)
    (index : Nat) (equity : Decimal) (held : Option Holding) (ahead : List Trade),
    equityFrom lastIndex index equity held (ahead.map (Trade.closeAt ⟨lastIndex, price⟩)) closes =
      equityFrom lastIndex index equity held ahead closes
  | [], _, _, _, _ => rfl
  | close :: rest, index, equity, held, ahead => by
    rw [equityFrom, equityFrom, takeUp_map_closeAt]
    rcases takeUp lastIndex index equity held ahead with ⟨_ | h, ahead'⟩ <;>
      simp only [equityFrom_map_closeAt price lastIndex rest]

/-- Left at the last bar, the open trade shows as it does when it is marked to market. -/
theorem equityCurve_closeAt (r : TradeRecord) (closes : List Decimal) (price : Decimal) :
    equityCurve .exclude (r.closeAt ⟨closes.length - 1, price⟩) closes =
      equityCurve .markToMarket r closes := by
  have shown (fill : Fill) : (r.closeAt fill).shown .exclude = r.trades.map (Trade.closeAt fill) :=
    List.filter_eq_self.2 fun t ht => by
      obtain ⟨u, -, rfl⟩ := List.mem_map.1 ht
      rfl
  unfold equityCurve
  rw [shown, TradeRecord.shown_markToMarket, equityFrom_map_closeAt]

/-- At a later bar than that of its entry, the open trade is left by an exit there. -/
theorem TradeRecord.exit?_eq_closeAt {closes : List Decimal} {r : TradeRecord} {t : Trade}
    {fill : Fill} (sequence : TradeSequence closes r.trades) (ho : r.openTrade? = some t)
    (later : t.entry.index < fill.index) : r.exit? fill = some (r.closeAt fill) := by
  obtain ⟨⟨earlier, trades⟩, hx⟩ := openTrade?_eq_some_iff.1 ho
  rw [trades] at sequence
  have kept : ∀ u ∈ earlier, u.closeAt fill = id u := fun u hu => by
    obtain ⟨x, hx, -⟩ := sequence.precedes_last u hu
    obtain ⟨entry, exit⟩ := u
    cases hx
    rfl
  unfold exit? closeAt
  rw [ho, trades, List.dropLast_concat, List.map_append, List.map_congr_left kept, List.map_id]
  obtain ⟨entry, exit⟩ := t
  cases hx
  exact if_pos later

/-! ## The curves -/

section Curves

variable {closes excluded marked : List Decimal} {r : TradeRecord} {t : Trade}

/-- Without an open trade the curve shows all trades. -/
theorem TradeRecord.shown_of_flat (sequence : TradeSequence closes r.trades)
    (flat : r.position = .flat) (policy : OpenPositionPolicy) : r.shown policy = r.trades := by
  have ends : r.openTrade? = none := by
    by_contra busy
    have long := position_eq_long_iff.2 (Option.isSome_iff_ne_none.2 busy)
    rw [flat] at long
    cases long
  refine List.filter_eq_self.2 fun t ht => ?_
  obtain ⟨x, hx, -⟩ := sequence.exit_of_flat (openTrade?_eq_none_iff.1 ends) t ht
  rw [Trade.isClosed, hx]
  rfl

/-- The curve without the open trade shows those before it. -/
theorem TradeRecord.shown_exclude_of_open {earlier : List Trade}
    (sequence : TradeSequence closes (earlier ++ [t])) (trades : r.trades = earlier ++ [t])
    (hx : t.exit = none) : r.shown .exclude = earlier := by
  have closed : earlier.filter Trade.isClosed = earlier := by
    refine List.filter_eq_self.2 fun u hu => ?_
    obtain ⟨x, hx, -⟩ := sequence.precedes_last u hu
    rw [Trade.isClosed, hx]
    rfl
  have left_out : [t].filter Trade.isClosed = [] := by
    refine List.filter_eq_nil_iff.2 (List.forall_mem_singleton.2 ?_)
    rw [Trade.isClosed, hx]
    exact Bool.false_ne_true
  rw [shown_exclude, completed, trades, List.filter_append, closed, left_out, List.append_nil]

theorem openTradeShown_of_equityCurve (sequence : TradeSequence closes r.trades)
    (ho : r.openTrade? = some t) (he : equityCurve .exclude r closes = .ok excluded)
    (hm : equityCurve .markToMarket r closes = .ok marked) :
    OpenTradeShown closes r t excluded marked := by
  obtain ⟨⟨earlier, trades⟩, hx⟩ := TradeRecord.openTrade?_eq_some_iff.1 ho
  have whole := sequence
  rw [trades] at whole
  have shown := TradeRecord.shown_exclude_of_open whole trades hx
  have inside : t.entry.index < closes.length := whole.last_entry_lt
  refine ⟨?_, fun i hi hil => ?_, fun price => (equityCurve_closeAt r closes price).trans hm,
    fun later price => TradeRecord.exit?_eq_closeAt sequence ho later⟩
  · -- none of the bars before the entry sees the open trade
    have front (policy : OpenPositionPolicy) {curve : List Decimal}
        (h : equityCurve policy r closes = .ok curve) :
        equityFrom (t.entry.index - 1) 0 .one none (tradesBefore t.entry.index (r.shown policy))
          (closes.take t.entry.index) = .ok (curve.take t.entry.index) :=
      equityFrom_take (by omega) closes (Nat.zero_le _) (fun _ => rfl)
        (sequence.ascending.sublist List.filter_sublist) h
    have same : tradesBefore t.entry.index r.trades = tradesBefore t.entry.index earlier := by
      rw [trades, tradesBefore_append,
        tradesBefore_of_le (List.forall_mem_singleton.2 (Nat.le_refl _)), List.append_nil]
    have first := front .exclude he
    have second := front .markToMarket hm
    rw [shown] at first
    rw [TradeRecord.shown_markToMarket, same] at second
    exact Except.ok.inj (first.symm.trans second)
  · have v : Valuation closes (· ∈ earlier) excluded := by
      rw [← shown]
      exact valuation_of_equityFrom sequence List.filter_sublist he
    refine v.equityBefore?_of_idle (Nat.le_succ_of_le hi) hil fun j hj _ u hu spans => ?_
    obtain ⟨x, hx, before⟩ := whole.precedes_last u hu
    have := spans.2
    rw [Trade.lastBar_of_exit hx] at this
    omega

/-- The curve without the open trade is its part before the entry, and the last value there from
then on. -/
theorem OpenTradeShown.eq_append_replicate (h : OpenTradeShown closes r t excluded marked)
    (length : excluded.length = closes.length) (inside : t.entry.index < closes.length) :
    ∃ last, equityBefore? excluded t.entry.index = some last ∧ excluded =
      excluded.take t.entry.index ++ List.replicate (closes.length - t.entry.index) last := by
  have first := h.waits t.entry.index (Nat.le_refl _) inside
  obtain ⟨last, hl⟩ : ∃ last, excluded[t.entry.index]? = some last :=
    ⟨_, List.getElem?_eq_getElem (length.symm ▸ inside)⟩
  rw [hl] at first
  refine ⟨last, first.symm, ?_⟩
  have rest : excluded.drop t.entry.index =
      List.replicate (closes.length - t.entry.index) last := by
    refine List.ext_getElem? fun i => ?_
    rw [List.getElem?_drop, List.getElem?_replicate]
    split
    · rw [h.waits _ (Nat.le_add_right _ _) (by omega), ← first]
    · exact List.getElem?_eq_none (by omega)
  rw [← rest, List.take_append_drop]

/-- The curve goes on where the one without the open trade stands still, so it falls as far at
least. -/
theorem OpenTradeShown.drawdown_le {depth depth' : Decimal}
    (h : OpenTradeShown closes r t excluded marked) (length : excluded.length = closes.length)
    (inside : t.entry.index < closes.length) (nonneg : ∀ equity ∈ excluded, 0 ≤ equity.toRat)
    (hd : drawdown excluded = .ok depth) (hd' : drawdown marked = .ok depth') :
    depth ≤ depth' := by
  obtain ⟨last, hl, stands⟩ := h.eq_append_replicate length inside
  rcases hi : t.entry.index with _ | index
  · -- without a bar before the entry the excluded curve is flat
    rw [hi] at hl stands
    cases hl
    rw [List.take_zero, List.nil_append] at stands
    rw [stands, drawdown_replicate] at hd
    cases hd
    exact drawdown_nonneg hd'
  · have ends : (excluded.take t.entry.index).getLast? = some last := by
      rw [hi] at hl ⊢
      have here : excluded[index]? = some last := hl
      rw [List.getLast?_take, if_neg (Nat.succ_ne_zero index), Nat.add_sub_cancel, here]
      rfl
    -- both drawdowns start from that of the common part
    obtain ⟨fall, hf, -⟩ := exists_drawdown fun equity he => nonneg equity (List.mem_of_mem_take he)
    have same := drawdown_append_replicate ends hf (closes.length - t.entry.index)
    rw [← stands, hd] at same
    cases same
    rw [h.before] at hf
    rw [← List.take_append_drop t.entry.index marked] at hd'
    exact drawdown_le_append hf hd'

end Curves

/-! ## Reports -/

/-- Reports of two curves of the same length for one record count the same trades. -/
theorem Report.counts_eq_of_length {strategy symbol : String} {curve curve' : List Decimal}
    {r : TradeRecord} {cash : Decimal} {report report' : Report}
    (length : curve.length = curve'.length) (h : ofRun strategy symbol curve r cash = .ok report)
    (h' : ofRun strategy symbol curve' r cash = .ok report') :
    report.trades = report'.trades ∧ report.winRatePercent = report'.winRatePercent := by
  have bars {last : Decimal} {xs : List Decimal} (ends : xs.getLast? = some last) : xs.length ≠ 0 :=
    fun none => by
      rw [List.length_eq_zero_iff.1 none] at ends
      cases ends
  rcases outcome_of_ofRun h with idle | ⟨ends, traded, positive, -, won, -, -⟩ <;>
    rcases outcome_of_ofRun h' with idle' | ⟨ends', traded', positive', -, won', -, -⟩
  · exact ⟨rfl, rfl⟩
  · rcases idle with rfl | none | poor
    · exact absurd length.symm (bars ends')
    · exact absurd none traded'
    · exact absurd positive' poor
  · rcases idle' with rfl | none | poor
    · exact absurd length (bars ends)
    · exact absurd none traded
    · exact absurd positive poor
  · cases won.symm.trans won'
    exact ⟨rfl, rfl⟩

/-! ## One simulation, two policies -/

/-- The curves of one simulation under the two policies. If it ends without an open trade they are
the same. Otherwise they agree before its entry; from there on the one without it keeps its value,
and the one with it is the curve of the record in which it is left at the last bar. Both have a
drawdown, the one with the open trade no smaller one. Reports of both have the same number of trades
and the same win rate. -/
theorem curves_under_both_policies {signals : Signals} {cash : Decimal} {series : Series}
    {r : TradeRecord} {excluded marked : List Decimal}
    (hr : TradeRecord.simulate signals cash series.closes = .ok r)
    (he : equityCurve .exclude r series.closes = .ok excluded)
    (hm : equityCurve .markToMarket r series.closes = .ok marked) :
    (r.position = .flat → excluded = marked) ∧
    (∀ t, r.openTrade? = some t → OpenTradeShown series.closes r t excluded marked) ∧
    (∃ depth depth', drawdown excluded = .ok depth ∧ drawdown marked = .ok depth' ∧
      depth ≤ depth') ∧
    ∀ strategy symbol cash' report report',
      Report.ofRun strategy symbol excluded r cash' = .ok report →
      Report.ofRun strategy symbol marked r cash' = .ok report' →
      report.trades = report'.trades ∧ report.winRatePercent = report'.winRatePercent := by
  have sequence := (TradeRecord.greedySchedule_of_simulate hr).toTradeSequence
  have length {policy : OpenPositionPolicy} {curve : List Decimal}
      (h : equityCurve policy r series.closes = .ok curve) : curve.length = series.closes.length :=
    (valuation_of_equityFrom sequence List.filter_sublist h).length
  have same (flat : r.position = .flat) : excluded = marked := by
    unfold equityCurve at he hm
    rw [TradeRecord.shown_of_flat sequence flat] at he hm
    exact Except.ok.inj (he.symm.trans hm)
  have shown (t : Trade) (ho : r.openTrade? = some t) :=
    openTradeShown_of_equityCurve sequence ho he hm
  obtain ⟨depth, hd, -⟩ := exists_drawdown (sequence.equityCurve_nonneg he)
  obtain ⟨depth', hd', -⟩ := exists_drawdown (sequence.equityCurve_nonneg hm)
  refine ⟨same, shown, ⟨depth, depth', hd, hd', ?_⟩, fun _ _ _ _ _ h h' =>
    Report.counts_eq_of_length ((length he).trans (length hm).symm) h h'⟩
  rcases ho : r.openTrade? with _ | t
  · rw [same (by rw [TradeRecord.position, ho]), hd'] at hd
    cases hd
    exact Decimal.le_iff.2 le_rfl
  · obtain ⟨⟨earlier, trades⟩, -⟩ := TradeRecord.openTrade?_eq_some_iff.1 ho
    have whole := sequence
    rw [trades] at whole
    exact (shown t ho).drawdown_le (length he) whole.last_entry_lt
      (sequence.equityCurve_nonneg he) hd hd'

/-- A trade that multiplies the equity by a hundred, and an open one that loses it again. -/
theorem curves_of_lost_gain :
    let signals : Signals := ⟨fun _ => true, fun index => index == 2⟩
    let bar (second : Int) (close : Decimal) : Bar :=
      ⟨⟨second, 0⟩, close, close, close, close, .one⟩
    let series : Series := ⟨"S", [bar 0 .one, bar 1 .hundred, bar 2 .hundred, bar 3 .hundred,
      bar 4 .one], by decide, by decide⟩
    let t : Trade := ⟨⟨3, .hundred⟩, none⟩
    let r : TradeRecord := ⟨.hundred, [⟨⟨0, .one⟩, some ⟨2, .hundred⟩⟩, t]⟩
    TradeRecord.simulate signals .hundred series.closes = .ok r ∧
      ∃ excluded marked, equityCurve .exclude r series.closes = .ok excluded ∧
        equityCurve .markToMarket r series.closes = .ok marked ∧
        excluded.map Decimal.toRat = [1, 100, 100, 100, 100] ∧
        marked.map Decimal.toRat = [1, 100, 100, 100, 1] ∧
        OpenTradeShown series.closes r t excluded marked ∧
        (∃ depth depth', drawdown excluded = .ok depth ∧ drawdown marked = .ok depth' ∧
          depth ≤ depth') ∧
        ∃ report report', Report.ofRun "s" "S" excluded r .hundred = .ok report ∧
          Report.ofRun "s" "S" marked r .hundred = .ok report' ∧
          report.trades = report'.trades ∧ report.winRatePercent = report'.winRatePercent := by
  intro signals bar series t r
  have hr : TradeRecord.simulate signals .hundred series.closes = .ok r := by decide +kernel
  have values : (equityCurve .exclude r series.closes).toOption.map (·.map Decimal.toRat) =
      some [1, 100, 100, 100, 100] := by decide +kernel
  have values' : (equityCurve .markToMarket r series.closes).toOption.map (·.map Decimal.toRat) =
      some [1, 100, 100, 100, 1] := by decide +kernel
  have reported (policy : OpenPositionPolicy) : (equityCurve policy r series.closes >>= fun curve =>
      Report.ofRun "s" "S" curve r .hundred).toOption.map Report.trades = some 1 := by
    cases policy <;> decide +kernel
  obtain ⟨excluded, he, shape⟩ := exists_of_toOption_map values
  obtain ⟨marked, hm, shape'⟩ := exists_of_toOption_map values'
  obtain ⟨report, h, -⟩ := exists_of_toOption_map (reported .exclude)
  obtain ⟨report', h', -⟩ := exists_of_toOption_map (reported .markToMarket)
  rw [he] at h
  rw [hm] at h'
  obtain ⟨-, shown, depths, counts⟩ := curves_under_both_policies hr he hm
  exact ⟨hr, excluded, marked, he, hm, shape, shape', shown t rfl, depths, report, report', h, h',
    counts "s" "S" .hundred report report' h h'⟩

end Backtest
