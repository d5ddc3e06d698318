/-
The greedy schedule: what the trades of a simulation are, said without the simulation. Trades
follow one another at the closes of the series, each entered and left at a signal, and no signal is
passed over: an entry is not called for while no trade is held, nor an exit while one is held. The
simulation finds the only such list, whatever the closes and the signals.

That it is such a list is an invariant of the closes seen so far (`GreedySchedule.advance`); that
there is no other one goes by the first place where two lists differ.
-/
import Backtest.Proofs.Chain
import Backtest.Proofs.Trade.Advance
import Mathlib.Data.List.Chain

namespace Backtest

/-- One trade is over before the other is entered. -/
def Trade.Precedes (t u : Trade) : Prop :=
  ∃ exit, t.exit = some exit ∧ exit.index < u.entry.index

/-- Trades one after another, filled at the closes; only the last one may be open. -/
structure TradeSequence (closes : List Decimal) (trades : List Trade) : Prop where
  ordered : trades.IsChain Trade.Precedes
  forward : ∀ t ∈ trades, ∀ exit, t.exit = some exit → t.entry.index < exit.index
  entryPrice : ∀ t ∈ trades, closes[t.entry.index]? = some t.entry.price
  exitPrice : ∀ t ∈ trades, ∀ exit, t.exit = some exit → closes[exit.index]? = some exit.price

/-- No trade is entered, held or left at the bar. -/
def IdleAt (trades : List Trade) (index : Nat) : Prop :=
  ∀ t ∈ trades, index < t.entry.index ∨ ∃ exit, t.exit = some exit ∧ exit.index < index

/-- The trade is held at the bar, which is neither that of its entry nor that of its exit. -/
def Trade.HeldAt (t : Trade) (index : Nat) : Prop :=
  t.entry.index < index ∧ ∀ exit, t.exit = some exit → index < exit.index

/-- The trades that take every entry and every exit as soon as it is called for. -/
structure GreedySchedule (signals : Signals) (closes : List Decimal) (trades : List Trade) : Prop
    extends TradeSequence closes trades where
  entrySignal : ∀ t ∈ trades, signals.enters t.entry.index = true
  exitSignal : ∀ t ∈ trades, ∀ exit, t.exit = some exit → signals.leaves exit.index = true
  noEntryMissed : ∀ index < closes.length, IdleAt trades index → signals.enters index = false
  noExitMissed : ∀ index < closes.length, ∀ t ∈ trades, t.HeldAt index →
    signals.leaves index = false

/-! ## Sequences of trades -/

namespace TradeSequence

theorem pairwise_of_chain : ∀ {trades : List Trade}, trades.IsChain Trade.Precedes →
    (∀ t ∈ trades, ∀ exit, t.exit = some exit → t.entry.index < exit.index) →
    trades.Pairwise Trade.Precedes
  | [], _, _ => .nil
  | [t], _, _ => List.pairwise_singleton _ t
  | t :: u :: rest, hc, hf => by
    obtain ⟨htu, hc⟩ := List.isChain_cons_cons.1 hc
    have ih := pairwise_of_chain hc fun v hv => hf v (List.mem_cons_of_mem _ hv)
    refine List.pairwise_cons.2 ⟨fun v hv => ?_, ih⟩
    rcases List.mem_cons.1 hv with rfl | hv
    · exact htu
    · -- `u` lies between the two, and its exit comes after its entry
      obtain ⟨x, hx, htu⟩ := htu
      obtain ⟨y, hy, huv⟩ := (List.pairwise_cons.1 ih).1 v hv
      have := hf u (by simp) y hy
      exact ⟨x, hx, by omega⟩

variable {closes : List Decimal} {trades : List Trade}

theorem pairwise (h : TradeSequence closes trades) : trades.Pairwise Trade.Precedes :=
  pairwise_of_chain h.ordered h.forward

theorem entry_lt (h : TradeSequence closes trades) {t : Trade} (ht : t ∈ trades) :
    t.entry.index < closes.length :=
  (List.getElem?_eq_some_iff.1 (h.entryPrice t ht)).1

theorem last_entry_lt {earlier : List Trade} {t : Trade}
    (h : TradeSequence closes (earlier ++ [t])) : t.entry.index < closes.length :=
  h.entry_lt (List.mem_append_right _ (List.mem_singleton_self t))

theorem exit_lt (h : TradeSequence closes trades) {t : Trade} (ht : t ∈ trades) {exit : Fill}
    (hx : t.exit = some exit) : exit.index < closes.length :=
  (List.getElem?_eq_some_iff.1 (h.exitPrice t ht exit hx)).1

/-- Every trade but the last is over before the last one. -/
theorem precedes_last {earlier : List Trade} {u : Trade}
    (h : TradeSequence closes (earlier ++ [u])) : ∀ t ∈ earlier, t.Precedes u :=
  fun t ht => (List.pairwise_append.1 h.pairwise).2.2 t ht u (List.mem_singleton_self u)

/-- Without an open trade at the end all trades are over. -/
theorem exit_of_flat (h : TradeSequence closes trades)
    (flat : ∀ t, trades.getLast? = some t → t.exit ≠ none) :
    ∀ t ∈ trades, ∃ exit, t.exit = some exit ∧ exit.index < closes.length := by
  intro t ht
  rcases List.eq_nil_or_concat trades with rfl | ⟨earlier, u, rfl⟩
  · cases ht
  · rw [List.concat_eq_append] at h flat ht
    have closed : ∃ x, t.exit = some x := by
      rcases List.mem_append.1 ht with he | he
      · obtain ⟨x, hx, -⟩ := h.precedes_last t he
        exact ⟨x, hx⟩
      · cases List.mem_singleton.1 he
        exact Option.ne_none_iff_exists'.1 (flat t (by simp))
    obtain ⟨x, hx⟩ := closed
    exact ⟨x, hx, h.exit_lt ht hx⟩

/-- One more close changes nothing about the trades so far. -/
theorem append_close (h : TradeSequence closes trades) (close : Decimal) :
    TradeSequence (closes ++ [close]) trades where
  ordered := h.ordered
  forward := h.forward
  entryPrice t ht := by rw [List.getElem?_append_left (h.entry_lt ht), h.entryPrice t ht]
  exitPrice t ht x hx := by rw [List.getElem?_append_left (h.exit_lt ht hx), h.exitPrice t ht x hx]

/-- A trade entered at the last close comes after trades that are over. -/
theorem append_enter (h : TradeSequence closes trades) (close : Decimal)
    (flat : ∀ t, trades.getLast? = some t → t.exit ≠ none) :
    TradeSequence (closes ++ [close]) (trades ++ [⟨⟨closes.length, close⟩, none⟩]) := by
  have h' := h.append_close close
  refine ⟨?_, ?_, ?_, ?_⟩
  · refine List.isChain_append.2 ⟨h.ordered, List.isChain_singleton _, ?_⟩
    intro t ht u hu
    obtain ⟨x, hx, hlt⟩ := h.exit_of_flat flat t (List.mem_of_getLast? ht)
    simp only [List.head?_cons, Option.mem_def, Option.some.injEq] at hu
    exact ⟨x, hx, by rw [← hu]; exact hlt⟩
  · intro t ht x hx
    rcases List.mem_append.1 ht with ht | ht
    · exact h.forward t ht x hx
    · cases List.mem_singleton.1 ht; cases hx
  · intro t ht
    rcases List.mem_append.1 ht with ht | ht
    · exact h'.entryPrice t ht
    · cases List.mem_singleton.1 ht; simp
  · intro t ht x hx
    rcases List.mem_append.1 ht with ht | ht
    · exact h'.exitPrice t ht x hx
    · cases List.mem_singleton.1 ht; cases hx

/-- The open trade may be left at the last close. -/
theorem append_exit {earlier : List Trade} {entry : Fill}
    (h : TradeSequence closes (earlier ++ [⟨entry, none⟩])) (close : Decimal) :
    TradeSequence (closes ++ [close]) (earlier ++ [⟨entry, some ⟨closes.length, close⟩⟩]) := by
  have h' := h.append_close close
  have old : ∀ t ∈ earlier, t ∈ earlier ++ [⟨entry, none⟩] := fun t ht => List.mem_append_left _ ht
  have last : (⟨entry, none⟩ : Trade) ∈ earlier ++ [⟨entry, none⟩] := by simp
  refine ⟨?_, ?_, ?_, ?_⟩
  · obtain ⟨hc, -, -⟩ := List.isChain_append.1 h.ordered
    refine List.isChain_append.2 ⟨hc, List.isChain_singleton _, ?_⟩
    intro t ht u hu
    obtain ⟨x, hx, hlt⟩ := h.precedes_last t (List.mem_of_getLast? ht)
    simp only [List.head?_cons, Option.mem_def, Option.some.injEq] at hu
    exact ⟨x, hx, by rw [← hu]; exact hlt⟩
  · intro t ht x hx
    rcases List.mem_append.1 ht with ht | ht
    · exact h.forward t (old t ht) x hx
    · cases List.mem_singleton.1 ht; cases hx
      exact h.last_entry_lt
  · intro t ht
    rcases List.mem_append.1 ht with ht | ht
    · exact h'.entryPrice t (old t ht)
    · cases List.mem_singleton.1 ht
      exact h'.entryPrice ⟨entry, none⟩ last
  · intro t ht x hx
    rcases List.mem_append.1 ht with ht | ht
    · exact h'.exitPrice t (old t ht) x hx
    · cases List.mem_singleton.1 ht; cases hx; simp

/-- Only an open trade is held after the last close. -/
theorem exit_eq_none_of_heldAt (h : TradeSequence closes trades) {t : Trade} (ht : t ∈ trades)
    (held : t.HeldAt closes.length) : t.exit = none := by
  rcases hx : t.exit with _ | x
  · rfl
  · have := h.exit_lt ht hx
    have := held.2 x hx
    omega

end TradeSequence

theorem lt_length_concat {closes : List Decimal} {close : Decimal} {index : Nat} :
    index < (closes ++ [close]).length ↔ index < closes.length ∨ index = closes.length := by
  rw [List.length_append, List.length_singleton, Nat.lt_succ_iff_lt_or_eq]

theorem idleAt_append {trades : List Trade} {t : Trade} {index : Nat} :
    IdleAt (trades ++ [t]) index ↔ IdleAt trades index ∧
      (index < t.entry.index ∨ ∃ exit, t.exit = some exit ∧ exit.index < index) := by
  unfold IdleAt
  rw [List.forall_mem_append, List.forall_mem_singleton]

/-! ## The simulation keeps a greedy schedule -/

namespace GreedySchedule

variable {signals : Signals} {closes : List Decimal} {trades : List Trade}

theorem nil (signals : Signals) : GreedySchedule signals [] [] := by
  refine ⟨⟨List.isChain_nil, ?_, ?_, ?_⟩, ?_, ?_, ?_, ?_⟩ <;> simp

/-- A bar at which no trade is open and no entry is called for. -/
theorem step_wait (h : GreedySchedule signals closes trades) (close : Decimal)
    (flat : ∀ t, trades.getLast? = some t → t.exit ≠ none)
    (quiet : signals.enters closes.length = false) :
    GreedySchedule signals (closes ++ [close]) trades where
  toTradeSequence := h.append_close close
  entrySignal := h.entrySignal
  exitSignal := h.exitSignal
  noEntryMissed index hi idle := by
    rcases lt_length_concat.1 hi with hi | rfl
    · exact h.noEntryMissed index hi idle
    · exact quiet
  noExitMissed index hi t ht held := by
    rcases lt_length_concat.1 hi with hi | rfl
    · exact h.noExitMissed index hi t ht held
    · obtain ⟨x, hx, -⟩ := h.exit_of_flat flat t ht
      rw [h.exit_eq_none_of_heldAt ht held] at hx
      cases hx

/-- A bar at which a trade is entered. -/
theorem step_enter (h : GreedySchedule signals closes trades) (close : Decimal)
    (flat : ∀ t, trades.getLast? = some t → t.exit ≠ none)
    (signal : signals.enters closes.length = true) :
    GreedySchedule signals (closes ++ [close]) (trades ++ [⟨⟨closes.length, close⟩, none⟩]) where
  toTradeSequence := h.append_enter close flat
  entrySignal := by
    rw [List.forall_mem_append, List.forall_mem_singleton]
    exact ⟨h.entrySignal, signal⟩
  exitSignal := by
    rw [List.forall_mem_append, List.forall_mem_singleton]
    exact ⟨h.exitSignal, fun x hx => by cases hx⟩
  noEntryMissed index hi idle := by
    obtain ⟨idle, new⟩ := idleAt_append.1 idle
    rcases new with hlt | ⟨x, hx, -⟩
    · exact h.noEntryMissed index hlt idle
    · cases hx
  noExitMissed index hi t ht held := by
    rcases List.mem_append.1 ht with ht | ht
    · rcases lt_length_concat.1 hi with hi | rfl
      · exact h.noExitMissed index hi t ht held
      · obtain ⟨x, hx, -⟩ := h.exit_of_flat flat t ht
        rw [h.exit_eq_none_of_heldAt ht held] at hx
        cases hx
    · cases List.mem_singleton.1 ht
      have := held.1
      simp only [List.length_append, List.length_singleton] at hi this
      omega

/-- A bar at which the open trade is kept. -/
theorem step_hold {earlier : List Trade} {entry : Fill}
    (h : GreedySchedule signals closes (earlier ++ [⟨entry, none⟩])) (close : Decimal)
    (quiet : signals.leaves closes.length = false) :
    GreedySchedule signals (closes ++ [close]) (earlier ++ [⟨entry, none⟩]) where
  toTradeSequence := h.append_close close
  entrySignal := h.entrySignal
  exitSignal := h.exitSignal
  noEntryMissed index hi idle := by
    obtain ⟨-, hlt | ⟨x, hx, -⟩⟩ := idleAt_append.1 idle
    · have : entry.index < closes.length := h.last_entry_lt
      exact h.noEntryMissed index (by simp only at hlt; omega) idle
    · cases hx
  noExitMissed index hi t ht held := by
    rcases lt_length_concat.1 hi with hi | rfl
    · exact h.noExitMissed index hi t ht held
    · exact quiet

/-- A bar at which the open trade is left. -/
theorem step_exit {earlier : List Trade} {entry : Fill}
    (h : GreedySchedule signals closes (earlier ++ [⟨entry, none⟩])) (close : Decimal)
    (signal : signals.leaves closes.length = true) :
    GreedySchedule signals (closes ++ [close])
      (earlier ++ [⟨entry, some ⟨closes.length, close⟩⟩]) where
  toTradeSequence := h.append_exit close
  entrySignal t ht := by
    rcases List.mem_append.1 ht with ht | ht
    · exact h.entrySignal t (List.mem_append_left _ ht)
    · cases List.mem_singleton.1 ht
      exact h.entrySignal ⟨entry, none⟩ (by simp)
  exitSignal t ht x hx := by
    rcases List.mem_append.1 ht with ht | ht
    · exact h.exitSignal t (List.mem_append_left _ ht) x hx
    · cases List.mem_singleton.1 ht; cases hx
      exact signal
  noEntryMissed index hi idle := by
    have : entry.index < closes.length := h.last_entry_lt
    obtain ⟨idle, hlt | ⟨x, hx, hlt⟩⟩ := idleAt_append.1 idle
    · exact h.noEntryMissed index (by simp only at hlt; omega) (idleAt_append.2 ⟨idle, .inl hlt⟩)
    · cases hx
      simp only [List.length_append, List.length_singleton] at hi hlt
      omega
  noExitMissed index hi t ht held := by
    rcases List.mem_append.1 ht with he | he
    · rcases lt_length_concat.1 hi with hi | rfl
      · exact h.noExitMissed index hi t (List.mem_append_left _ he) held
      · obtain ⟨x, hx, -⟩ := h.precedes_last t he
        rw [h.exit_eq_none_of_heldAt (List.mem_append_left _ he) held] at hx
        cases hx
    · cases List.mem_singleton.1 he
      have hlt : index < closes.length := held.2 ⟨closes.length, close⟩ rfl
      exact h.noExitMissed index hlt ⟨entry, none⟩ (by simp) ⟨held.1, fun x hx => by cases hx⟩

/-- One more bar. The open trade was entered at an earlier one, so a call for its exit is never
refused. -/
theorem advance {r : TradeRecord} (h : GreedySchedule signals closes r.trades) (close : Decimal) :
    GreedySchedule signals (closes ++ [close])
      (r.advance signals ⟨closes.length, close⟩).trades := by
  have step := TradeRecord.barStep_advance signals r ⟨closes.length, close⟩
  generalize r.trades = trades at h step
  generalize (r.advance signals ⟨closes.length, close⟩).trades = after at step
  cases step with
  | wait flat quiet => exact h.step_wait close flat quiet
  | enter flat signal => exact h.step_enter close flat signal
  | @hold earlier entry quiet =>
    refine h.step_hold close (quiet.resolve_right ?_)
    have : entry.index < closes.length := h.last_entry_lt
    simp only
    omega
  | exit signal _ => exact h.step_exit close signal

theorem advanceAll : ∀ (closes : List Decimal) {seen : List Decimal} {r : TradeRecord},
    GreedySchedule signals seen r.trades →
    GreedySchedule signals (seen ++ closes) (r.advanceAll signals seen.length closes).trades
  | [], seen, r, h => by
    rw [List.append_nil]
    exact h
  | close :: rest, seen, r, h => by
    have ih := advanceAll rest (h.advance close)
    rw [List.append_assoc, List.singleton_append, List.length_append, List.length_singleton] at ih
    exact ih

/-! ## There is no other one -/

variable {pre ts us : List Trade}

/-- After common trades, no list goes on earlier than another one. -/
theorem not_earlier {t : Trade} (ht : GreedySchedule signals closes (pre ++ t :: ts))
    (hu : GreedySchedule signals closes (pre ++ us)) : ¬ ∀ u ∈ us, t.entry.index < u.entry.index := by
  intro later
  have mem : t ∈ pre ++ t :: ts := by simp
  -- at its entry the other list is idle, so that list misses the signal
  have idle : IdleAt (pre ++ us) t.entry.index := by
    intro u hm
    rcases List.mem_append.1 hm with hm | hm
    · exact .inr ((List.pairwise_append.1 ht.pairwise).2.2 u hm t (List.mem_cons_self ..))
    · exact .inl (later u hm)
  have signal := ht.entrySignal t mem
  rw [hu.noEntryMissed _ (ht.entry_lt mem) idle] at signal
  cases signal

/-- Of two trades entered at the same bar, neither is left earlier than the other. -/
theorem exit_not_earlier {t u : Trade} (ht : GreedySchedule signals closes ts)
    (hu : GreedySchedule signals closes us) (mt : t ∈ ts) (mu : u ∈ us)
    (entry : t.entry.index = u.entry.index) {x : Fill} (hx : t.exit = some x) :
    ¬ ∀ y, u.exit = some y → x.index < y.index := by
  intro later
  have held : u.HeldAt x.index := ⟨by have := ht.forward t mt x hx; omega, later⟩
  have signal := ht.exitSignal t mt x hx
  rw [hu.noExitMissed _ (ht.exit_lt mt hx) u mu held] at signal
  cases signal

/-- Two trades entered at the same bar are left at the same bar, if at all, and at the same price. -/
theorem exit_eq {t u : Trade} (ht : GreedySchedule signals closes ts)
    (hu : GreedySchedule signals closes us) (mt : t ∈ ts) (mu : u ∈ us)
    (entry : t.entry.index = u.entry.index) : t.exit = u.exit := by
  rcases hx : t.exit with _ | x <;> rcases hy : u.exit with _ | y
  · rfl
  · exact absurd (fun x h => by rw [hx] at h; cases h) (exit_not_earlier hu ht mu mt entry.symm hy)
  · exact absurd (fun y h => by rw [hy] at h; cases h) (exit_not_earlier ht hu mt mu entry hx)
  · have index : x.index = y.index := by
      by_contra hne
      rcases Nat.lt_or_gt_of_ne hne with hlt | hlt
      · exact exit_not_earlier ht hu mt mu entry hx fun z hz => by
          rw [hy] at hz; cases hz; exact hlt
      · exact exit_not_earlier hu ht mu mt entry.symm hy fun z hz => by
          rw [hx] at hz; cases hz; exact hlt
    have price := ht.exitPrice t mt x hx
    rw [index, hu.exitPrice u mu y hy, Option.some.injEq] at price
    obtain ⟨_, _⟩ := x
    obtain ⟨_, _⟩ := y
    cases index; cases price
    rfl

/-- Two lists with a common front go on with the same trade. -/
theorem next_eq {t u : Trade} (ht : GreedySchedule signals closes (pre ++ t :: ts))
    (hu : GreedySchedule signals closes (pre ++ u :: us)) : t = u := by
  have mt : t ∈ pre ++ t :: ts := by simp
  have mu : u ∈ pre ++ u :: us := by simp
  have after : ∀ {v : Trade} {vs : List Trade}, GreedySchedule signals closes (pre ++ v :: vs) →
      ∀ w ∈ v :: vs, v.entry.index ≤ w.entry.index := by
    intro v vs hv w hw
    rcases List.mem_cons.1 hw with rfl | hw
    · exact Nat.le_refl _
    · have pairwise := (List.pairwise_append.1 hv.pairwise).2.1
      obtain ⟨x, hx, hlt⟩ := (List.pairwise_cons.1 pairwise).1 w hw
      have := hv.forward v (by simp) x hx
      omega
  have index : t.entry.index = u.entry.index := by
    by_contra hne
    rcases Nat.lt_or_gt_of_ne hne with hlt | hlt
    · exact not_earlier ht hu fun w hw => Nat.lt_of_lt_of_le hlt (after hu w hw)
    · exact not_earlier hu ht fun w hw => Nat.lt_of_lt_of_le hlt (after ht w hw)
  have price := ht.entryPrice t mt
  rw [index, hu.entryPrice u mu, Option.some.injEq] at price
  have exit := exit_eq ht hu mt mu index
  obtain ⟨⟨_, _⟩, _⟩ := t
  obtain ⟨⟨_, _⟩, _⟩ := u
  cases index; cases price; cases exit
  rfl

theorem suffix_eq : ∀ {ts us pre : List Trade}, GreedySchedule signals closes (pre ++ ts) →
    GreedySchedule signals closes (pre ++ us) → ts = us
  | [], [], _, _, _ => rfl
  | [], u :: us, pre, ht, hu => absurd (List.forall_mem_nil _) (not_earlier hu ht)
  | t :: ts, [], pre, ht, hu => absurd (List.forall_mem_nil _) (not_earlier ht hu)
  | t :: ts, u :: us, pre, ht, hu => by
    cases next_eq ht hu
    rw [List.append_cons] at ht hu
    rw [suffix_eq ht hu]

/-- At most one list of trades is a greedy schedule. -/
theorem unique (ht : GreedySchedule signals closes ts) (hu : GreedySchedule signals closes us) :
    ts = us :=
  suffix_eq (show GreedySchedule signals closes ([] ++ ts) from ht) hu

end GreedySchedule

namespace TradeRecord

/-- The trades of a simulation are a greedy schedule. -/
theorem greedySchedule_of_simulate {signals : Signals} {cash : Decimal} {closes : List Decimal}
    {r : TradeRecord} (h : simulate signals cash closes = .ok r) :
    GreedySchedule signals closes r.trades := by
  rcases closes with _ | ⟨first, rest⟩
  · cases h
    exact .nil signals
  · obtain ⟨quantity, -, h⟩ := bind_eq_ok_iff.1 h
    cases pure_eq_ok_iff.1 h
    exact GreedySchedule.advanceAll (first :: rest) (r := empty quantity) (.nil signals)

/-- Whenever a simulation has a result, its trades are the one list that is a greedy schedule of
the signals over the closes. -/
theorem greedySchedule_iff_eq_trades {signals : Signals} {cash : Decimal} {closes : List Decimal}
    {r : TradeRecord} (h : simulate signals cash closes = .ok r) (trades : List Trade) :
    GreedySchedule signals closes trades ↔ trades = r.trades := by
  constructor
  · intro ht
    exact ht.unique (greedySchedule_of_simulate h)
  · rintro rfl
    exact greedySchedule_of_simulate h

/-- A call to leave at the bar of an entry passes, as does a call to enter while a trade is held. -/
theorem greedySchedule_of_crowded_signals :
    let signals : Signals := ⟨fun _ => true, fun index => index != 1⟩
    let closes : List Decimal := [.one, .hundred, .one, .hundred]
    let trades : List Trade := [⟨⟨0, .one⟩, some ⟨2, .one⟩⟩, ⟨⟨3, .hundred⟩, none⟩]
    simulate signals .hundred closes = .ok ⟨.hundred, trades⟩ ∧
      ∀ others, GreedySchedule signals closes others ↔ others = trades := by
  intro signals closes trades
  have h : simulate signals .hundred closes = .ok ⟨.hundred, trades⟩ := by decide +kernel
  exact ⟨h, greedySchedule_iff_eq_trades h⟩

end TradeRecord

end Backtest
