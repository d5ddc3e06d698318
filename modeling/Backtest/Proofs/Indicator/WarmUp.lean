/-
When indicators begin to show values, and how each value comes from the ones before. An average over
a period shows its first value at the close that fills the period, and the strength index at the
next one, which completes as many changes. From there on no close is without a value.

Over the first closes, as many as the period, the exponential average is the simple one; then each
value is the one before, moved by the rounded fraction `2 / (period + 1)` of its distance to the
close. The strength index compares two averages of the changes so far, of the gains and of the
losses (`ChangeAverage`): the mean of the first changes, as many as the period, moved by each later
one.

Each of these is an invariant of the closes so far and the state of the scan.
-/
import Backtest.Proofs.Indicator.Cache
import Backtest.Proofs.Indicator.Prefix
import Backtest.Proofs.Indicator.Strength

namespace Backtest.Indicator

/-- At the bar of this index the warm-up of the indicator is over. Without a period it never is. -/
def WarmAt (index : ℕ) : Indicator → Prop
  | price => True
  | sma period | ema period => 1 ≤ period ∧ period - 1 ≤ index
  | rsi period => 1 ≤ period ∧ period ≤ index

/-! ## Changes -/

/-- The changes from close to close, each rounded. -/
def changes : List Decimal → Except Fault (List Decimal)
  | last :: close :: rest => do
    let change ← close.sub last
    let later ← changes (close :: rest)
    return change :: later
  | _ => .ok []

/-- What a change counts as a gain. -/
def rise (change : Decimal) : Decimal := max change .zero

/-- What a change counts as a loss. -/
def fall (change : Decimal) : Decimal := max (-change) .zero

/-- The sum of some amounts, rounded at each of them. -/
def summed (amounts : List Decimal) : Except Fault Decimal :=
  amounts.foldlM Decimal.add .zero

/-- The average of some amounts: the mean of the first ones, as many as the period, and after each
later amount the part `1 / period` of that amount and `period - 1` times the average before. -/
inductive ChangeAverage (period : ℕ) : List Decimal → Decimal → Prop
  | seed {amounts : List Decimal} {sum average : Decimal} (full : amounts.length = period)
      (total : summed amounts = .ok sum) (mean : sum.part period = .ok average) :
      ChangeAverage period amounts average
  | move {amounts : List Decimal} {previous amount weighted sum average : Decimal}
      (before : ChangeAverage period amounts previous)
      (scaled : previous.times (period - 1) = .ok weighted)
      (added : weighted.add amount = .ok sum) (mean : sum.part period = .ok average) :
      ChangeAverage period (amounts ++ [amount]) average

section Changes

variable {closes ds : List Decimal}

theorem changes_cons_eq_ok_iff {last close : Decimal} {rest : List Decimal} :
    changes (last :: close :: rest) = .ok ds ↔ ∃ change later, close.sub last = .ok change ∧
      changes (close :: rest) = .ok later ∧ ds = change :: later := by
  rw [changes, bind_eq_ok_iff]
  constructor
  · rintro ⟨change, hc, h⟩
    obtain ⟨later, hl, h⟩ := bind_eq_ok_iff.1 h
    exact ⟨change, later, hc, hl, (pure_eq_ok_iff.1 h).symm⟩
  · rintro ⟨change, later, hc, hl, rfl⟩
    exact ⟨change, hc, bind_eq_ok_iff.2 ⟨later, hl, rfl⟩⟩

/-- There is one change less than there are closes. -/
theorem length_of_changes {last : Decimal} : ∀ {closes ds : List Decimal},
    changes closes = .ok ds → closes.getLast? = some last → closes.length = ds.length + 1
  | [], _, _, hl => by cases hl
  | [_], _, h, _ => by cases h; rfl
  | _ :: close :: rest, _, h, hl => by
    obtain ⟨change, later, -, hr, rfl⟩ := changes_cons_eq_ok_iff.1 h
    rw [List.getLast?_cons_cons] at hl
    rw [List.length_cons, length_of_changes hr hl, List.length_cons]

/-- One more close brings the change from the last one. -/
theorem changes_concat {close change : Decimal} : ∀ {closes ds : List Decimal} {last : Decimal},
    changes closes = .ok ds → closes.getLast? = some last → close.sub last = .ok change →
    changes (closes ++ [close]) = .ok (ds ++ [change])
  | [], _, _, _, hl, _ => by cases hl
  | [only], _, last, h, hl, hc => by
    cases h
    cases hl
    exact changes_cons_eq_ok_iff.2 ⟨change, [], hc, rfl, rfl⟩
  | first :: second :: rest, _, last, h, hl, hc => by
    obtain ⟨d, later, hd, hr, rfl⟩ := changes_cons_eq_ok_iff.1 h
    rw [List.getLast?_cons_cons] at hl
    have ih := changes_concat hr hl hc
    exact changes_cons_eq_ok_iff.2 ⟨d, later ++ [change], hd, ih, rfl⟩

theorem summed_concat {amounts : List Decimal} {amount sum sum' : Decimal}
    (h : summed amounts = .ok sum) (added : sum.add amount = .ok sum') :
    summed (amounts ++ [amount]) = .ok sum' := by
  unfold summed at h ⊢
  rw [List.foldlM_append]
  exact bind_eq_ok_iff.2 ⟨sum, h, bind_eq_ok_iff.2 ⟨sum', added, rfl⟩⟩

end Changes

/-! ## Scans that warm up -/

/-- A scan whose step shows a value exactly after so many closes has values exactly from there
on. -/
theorem at?_iff_of_scan {σ : Type} {step : σ → Decimal → Except Fault (σ × Option Decimal)} {s : σ}
    {closes : List Decimal} {values : Values} (warm : ℕ) (Inv : List Decimal → σ → Prop)
    (start : Inv [] s)
    (keeps : ∀ seen before close after shown, Inv seen before →
      step before close = .ok (after, shown) → Inv (seen ++ [close]) after)
    (shows : ∀ seen before close after shown, Inv seen before →
      step before close = .ok (after, shown) → (shown.isSome ↔ warm ≤ seen.length))
    (h : scan step s closes = .ok values) (index : ℕ) :
    (values.at? index).isSome ↔ index < closes.length ∧ warm ≤ index := by
  by_cases hi : index < closes.length
  · obtain ⟨before, after, shown, hb, hs, -, here⟩ := exists_states_of_scan closes hi h
    have inv := stateAfter_induction Inv keeps _ start hb
    have shows := shows _ before _ after shown inv hs
    rw [List.nil_append, List.length_take_of_le hi.le] at shows
    unfold Values.at?
    rw [here]
    exact shows.trans (by simp [hi])
  · rw [Values.at?_of_length_le (by rw [length_scan h]; omega)]
    simp [hi]

/-! ## The price and the simple average -/

section Simple

variable {period : ℕ} {closes : List Decimal} {values : Values}

theorem priceValues_isSome_iff (h : price.values closes = .ok values) (index : ℕ) :
    (values.at? index).isSome ↔ index < closes.length ∧ price.WarmAt index := by
  cases h
  unfold Values.at? WarmAt
  by_cases hi : index < closes.length <;> simp [hi]

/-- The window counts the closes until it is full. -/
def Window.Counts (period : ℕ) (seen : List Decimal) (w : Window) : Prop :=
  w.filled = min seen.length period

theorem Window.Counts.step {seen : List Decimal} {w t : Window} {close : Decimal}
    {shown : Option Decimal} (h : w.Counts period seen) (s : WindowStep period w close t shown) :
    t.Counts period (seen ++ [close]) := by
  unfold Counts at h ⊢
  rw [List.length_append, List.length_singleton]
  cases s with
  | fill added short => dsimp only at h ⊢; omega
  | complete added last mean => dsimp only at h ⊢; omega
  | slide added full removed mean => dsimp only at h ⊢; omega
  | widen added full mean => dsimp only at h ⊢; omega

/-- A close shows a value when it fills the window or finds it full. -/
theorem Window.Counts.isSome_iff {seen : List Decimal} {w t : Window} {close : Decimal}
    {shown : Option Decimal} (h : w.Counts period seen) (s : WindowStep period w close t shown) :
    shown.isSome ↔ period - 1 ≤ seen.length := by
  unfold Counts at h
  cases s with
  | fill added short =>
    dsimp only at h
    exact ⟨nofun, fun late => absurd late (by omega)⟩
  | complete added last mean =>
    dsimp only at h
    exact ⟨fun _ => by omega, fun _ => rfl⟩
  | slide added full removed mean =>
    dsimp only at h
    exact ⟨fun _ => by omega, fun _ => rfl⟩
  | widen added full mean =>
    dsimp only at h
    exact ⟨fun _ => by omega, fun _ => rfl⟩

theorem smaValues_isSome_iff (h : smaValues period closes = .ok values) (index : ℕ) :
    (values.at? index).isSome ↔ index < closes.length ∧ (sma period).WarmAt index := by
  unfold smaValues at h
  by_cases hp : period = 0
  · rw [if_pos hp] at h
    cases h
    simp [WarmAt, hp]
  · rw [if_neg hp] at h
    rw [WarmAt, and_iff_right (Nat.one_le_iff_ne_zero.2 hp)]
    refine at?_iff_of_scan (period - 1) (fun seen w => w.Counts period seen) ?_ ?_ ?_ h index
    · exact (Nat.zero_min period).symm
    · exact fun _ _ _ _ _ counts hs => counts.step (Window.step_of_slide hs)
    · exact fun _ _ _ _ _ counts hs => counts.isSome_iff (Window.step_of_slide hs)

end Simple

/-! ## The exponential average -/

/-- What the values of an exponential average are over the closes. -/
structure FollowsCloses (period : ℕ) (closes : List Decimal) (values : Values) : Prop where
  /-- As far as the first value it is the simple average. -/
  starts : smaValues period (closes.take period) = .ok (values.take period)
  seed : ∀ averages, smaValues period closes = .ok averages →
    averages.at? (period - 1) = values.at? (period - 1)
  moves : ∃ fraction, Decimal.nearest? (2 / (period + 1)) = some fraction ∧
    ∀ i (hi : i < closes.length), period ≤ i → ∃ average distance part average',
      values.at? (i - 1) = some average ∧ closes[i].sub average = .ok distance ∧
      fraction.mul distance = .ok part ∧ average.add part = .ok average' ∧
      values.at? i = some average'

section Exponential

variable {period : ℕ} {fraction : Decimal} {closes : List Decimal} {values : Values}

/-- While the first average is not complete there were as many closes as are counted. -/
def Trend.Counts (period : ℕ) (seen : List Decimal) : Trend → Prop
  | .warming count _ => count = seen.length ∧ count < period
  | .moving _ => period ≤ seen.length

theorem Trend.Counts.step {seen : List Decimal} {t t' : Trend} {close : Decimal}
    {shown : Option Decimal} (h : t.Counts period seen)
    (s : TrendStep period fraction t close t' shown) : t'.Counts period (seen ++ [close]) := by
  have length : (seen ++ [close]).length = seen.length + 1 := by simp
  cases s with
  | warm added short => exact ⟨by rw [length, h.1], short⟩
  | seed added full mean => exact by rw [Counts, length, ← h.1]; exact full
  | move => exact by rw [Counts, length]; exact Nat.le_succ_of_le h

/-- A close shows a value when it completes the first average or moves it. -/
theorem Trend.Counts.isSome_iff {seen : List Decimal} {t t' : Trend} {close : Decimal}
    {shown : Option Decimal} (h : t.Counts period seen)
    (s : TrendStep period fraction t close t' shown) :
    shown.isSome ↔ period - 1 ≤ seen.length := by
  cases s with
  | warm added short =>
    have count := h.1
    exact ⟨nofun, fun late => absurd late (by omega)⟩
  | seed added full mean =>
    have count := h.1
    exact ⟨fun _ => by omega, fun _ => rfl⟩
  | move => exact ⟨fun _ => (Nat.sub_le period 1).trans h, fun _ => rfl⟩

theorem emaValues_isSome_iff (h : emaValues period closes = .ok values) (index : ℕ) :
    (values.at? index).isSome ↔ index < closes.length ∧ (ema period).WarmAt index := by
  unfold emaValues at h
  by_cases hp : period = 0
  · rw [if_pos hp] at h
    cases h
    simp [WarmAt, hp]
  · rw [if_neg hp] at h
    obtain ⟨fraction, -, h⟩ := bind_eq_ok_iff.1 h
    rw [WarmAt, and_iff_right (Nat.one_le_iff_ne_zero.2 hp)]
    refine at?_iff_of_scan (period - 1) (fun seen t => t.Counts period seen) ?_ ?_ ?_ h index
    · exact ⟨rfl, Nat.pos_of_ne_zero hp⟩
    · exact fun _ _ _ _ _ counts hs => counts.step (Trend.step_of_advance hs)
    · exact fun _ _ _ _ _ counts hs => counts.isSome_iff (Trend.step_of_advance hs)

/-- While a close is still to come for the first average, both averages are in the same state. -/
def Trend.LikeWindow (period n : ℕ) (t : Trend) (w : Window) : Prop :=
  n ≠ 0 → t = .warming w.filled w.sum ∧ w.filled + n ≤ period

theorem Trend.LikeWindow.step (n : ℕ) (t : Trend) (w : Window) (close : Decimal) (t' : Trend)
    (shown : Option Decimal) (h : t.LikeWindow period (n + 1) w)
    (hs : t.advance period fraction close = .ok (t', shown)) :
    ∃ w', w.slide period close = .ok (w', shown) ∧ t'.LikeWindow period n w' := by
  obtain ⟨filled, sum, leaving⟩ := w
  obtain ⟨rfl, room⟩ := h (Nat.succ_ne_zero n)
  dsimp only at room hs
  cases Trend.step_of_advance hs with
  | warm added short =>
    refine ⟨_, (WindowStep.fill added short).slide_eq_ok, fun _ => ⟨rfl, ?_⟩⟩
    dsimp only
    omega
  | seed added full mean =>
    refine ⟨_, (WindowStep.complete added (by omega) mean).slide_eq_ok, fun more => ?_⟩
    omega

/-- Over the first closes, as many as the period, the exponential average is the simple one. -/
theorem smaValues_take_of_emaValues (hp : period ≠ 0) (h : emaValues period closes = .ok values) :
    smaValues period (closes.take period) = .ok (values.take period) := by
  have length : values.length = closes.length := length_values (i := .ema period) h
  unfold emaValues at h
  rw [if_neg hp] at h
  obtain ⟨fraction, -, h⟩ := bind_eq_ok_iff.1 h
  have first : ∀ n ≤ closes.length, n ≤ period →
      smaValues period (closes.take n) = .ok (values.take n) := by
    intro n hn room
    unfold smaValues
    rw [if_neg hp]
    refine scan_take (R := Trend.LikeWindow period) Trend.LikeWindow.step closes n hn ?_ h
    exact fun _ => ⟨rfl, by rw [Nat.zero_add]; exact room⟩
  rcases Nat.le_total period closes.length with hl | hl
  · exact first period hl le_rfl
  · have := first closes.length le_rfl hl
    rw [List.take_length, ← length, List.take_length] at this
    rwa [List.take_of_length_le hl, List.take_of_length_le (length ▸ hl)]

theorem at?_take {values : Values} {n index : ℕ} (h : index < n) :
    Values.at? (values.take n) index = values.at? index := by
  unfold Values.at?
  rw [List.getElem?_take_of_lt h]

/-- A value is the average in the state after its close. -/
theorem at?_eq_average? {t : Trend} {i : ℕ} (hi : i < closes.length)
    (h : scan (Trend.advance period fraction) (.warming 0 .zero) closes = .ok values)
    (ht : stateAfter (Trend.advance period fraction) (.warming 0 .zero) (closes.take (i + 1)) =
      .ok t) : values.at? i = t.average? := by
  obtain ⟨before, after, shown, -, hs, ha, here⟩ := exists_states_of_scan closes hi h
  cases ht.symm.trans ha
  unfold Values.at?
  rw [here, (Trend.step_of_advance hs).shown_eq]
  rfl

theorem emaValues_followsCloses (hp : period ≠ 0) (h : emaValues period closes = .ok values) :
    FollowsCloses period closes values := by
  have starts := smaValues_take_of_emaValues hp h
  refine ⟨starts, fun averages hs => ?_, ?_⟩
  · -- both show the same over the first closes, and the simple average does not look ahead
    have kept (xs : Values) : Values.at? (xs.take period) (period - 1) = xs.at? (period - 1) :=
      at?_take (by omega)
    rw [← kept averages, ← kept values]
    rcases Nat.le_total period closes.length with hl | hl
    · rw [smaValues_take hl hs] at starts
      rw [Except.ok.inj starts]
    · rw [List.take_of_length_le hl, hs] at starts
      have length : averages.length ≤ period := (length_values (i := .sma period) hs) ▸ hl
      rw [List.take_of_length_le length, Except.ok.inj starts]
  · unfold emaValues at h
    rw [if_neg hp] at h
    obtain ⟨fraction, hf, h⟩ := bind_eq_ok_iff.1 h
    unfold Decimal.ratio at hf
    rw [if_neg (Nat.succ_ne_zero period), Decimal.rounded_eq_ok_iff] at hf
    push_cast at hf
    refine ⟨fraction, hf, fun i hi full => ?_⟩
    obtain ⟨before, after, shown, hb, hs, ha, -⟩ := exists_states_of_scan closes hi h
    have counts : before.Counts period (closes.take i) := by
      have start : (Trend.warming 0 .zero).Counts period [] := ⟨rfl, Nat.pos_of_ne_zero hp⟩
      exact stateAfter_induction (fun seen t => Trend.Counts period seen t)
        (fun _ _ _ _ _ counts hs => counts.step (Trend.step_of_advance hs)) _ start hb
    have current := at?_eq_average? hi h ha
    cases Trend.step_of_advance hs with
    | warm | seed =>
      rw [Trend.Counts, List.length_take_of_le hi.le] at counts
      omega
    | @move average _ distance part average' away weighted moved =>
      obtain ⟨j, rfl⟩ : ∃ j, i = j + 1 := ⟨i - 1, by omega⟩
      have previous := at?_eq_average? (Nat.lt_of_succ_lt hi) h hb
      exact ⟨average, distance, part, average', previous, away, weighted, moved, current⟩

end Exponential

/-! ## The strength index -/

/-- What the values of a strength index are over the closes: the index of the averages of the gains
and of the losses so far. -/
def ComparesChanges (period : ℕ) (closes : List Decimal) (values : Values) : Prop :=
  ∀ i < closes.length, period ≤ i → ∃ ds gain loss v, changes (closes.take (i + 1)) = .ok ds ∧
    ChangeAverage period (ds.map rise) gain ∧ ChangeAverage period (ds.map fall) loss ∧
    strength gain loss = .ok v ∧ values.at? i = some v

section Strength

variable {period : ℕ} {closes seen : List Decimal} {values : Values}

/-- What is known after some closes: the last of them, and of the changes between them the sums or
the averages. -/
def Momentum.Over (period : ℕ) (seen : List Decimal) : Momentum → Prop
  | .start => seen = []
  | .summing count last gain loss => seen.getLast? = some last ∧ ∃ ds, changes seen = .ok ds ∧
      ds.length = count ∧ count < period ∧ summed (ds.map rise) = .ok gain ∧
      summed (ds.map fall) = .ok loss
  | .averaging last gain loss => seen.getLast? = some last ∧ ∃ ds, changes seen = .ok ds ∧
      period ≤ ds.length ∧ ChangeAverage period (ds.map rise) gain ∧
      ChangeAverage period (ds.map fall) loss

theorem ChangeAverage.of_smooth {amounts : List Decimal} {previous amount average : Decimal}
    (h : ChangeAverage period amounts previous) (hs : smooth period previous amount = .ok average) :
    ChangeAverage period (amounts ++ [amount]) average := by
  unfold smooth at hs
  obtain ⟨weighted, hw, hs⟩ := bind_eq_ok_iff.1 hs
  obtain ⟨sum, ha, mean⟩ := bind_eq_ok_iff.1 hs
  exact .move h hw ha mean

theorem Momentum.Over.step {m m' : Momentum} {close : Decimal} {shown : Option Decimal}
    (hp : period ≠ 0) (h : m.Over period seen) (s : MomentumStep period m close m' shown) :
    m'.Over period (seen ++ [close]) := by
  have last : (seen ++ [close]).getLast? = some close := List.getLast?_concat
  cases s with
  | start =>
    cases h
    exact ⟨last, [], rfl, rfl, Nat.pos_of_ne_zero hp, rfl, rfl⟩
  | @sum _ _ _ _ _ change _ _ moved short gained lost =>
    obtain ⟨ends, ds, hd, length, -, hg, hl⟩ := h
    refine ⟨last, ds ++ [change], changes_concat hd ends moved, by simp [length], short, ?_, ?_⟩
    · rw [List.map_append]
      exact summed_concat hg gained
    · rw [List.map_append]
      exact summed_concat hl lost
  | @seed _ _ _ _ _ change _ _ _ _ _ moved full gained averageGain lost averageLoss shown =>
    obtain ⟨ends, ds, hd, length, short, hg, hl⟩ := h
    have count : (ds ++ [change]).length = period := by
      rw [List.length_append, List.length_singleton]
      omega
    refine ⟨last, ds ++ [change], changes_concat hd ends moved, count.ge, ?_, ?_⟩
    · refine .seed (by rw [List.length_map, count]) ?_ averageGain
      rw [List.map_append]
      exact summed_concat hg gained
    · refine .seed (by rw [List.length_map, count]) ?_ averageLoss
      rw [List.map_append]
      exact summed_concat hl lost
  | @move _ _ _ _ change _ _ _ moved gained lost shown =>
    obtain ⟨ends, ds, hd, long, hg, hl⟩ := h
    refine ⟨last, ds ++ [change], changes_concat hd ends moved, ?_, ?_, ?_⟩
    · rw [List.length_append]
      omega
    · rw [List.map_append]
      exact hg.of_smooth gained
    · rw [List.map_append]
      exact hl.of_smooth lost

/-- A close shows a value when there were as many changes before it as the period but one. -/
theorem Momentum.Over.isSome_iff {m m' : Momentum} {close : Decimal} {shown : Option Decimal}
    (hp : period ≠ 0) (h : m.Over period seen) (s : MomentumStep period m close m' shown) :
    shown.isSome ↔ period ≤ seen.length := by
  cases s with
  | start =>
    cases h
    exact ⟨nofun, fun late => absurd (Nat.le_zero.1 late) hp⟩
  | sum moved short =>
    obtain ⟨ends, ds, hd, count, -⟩ := h
    have length := length_of_changes hd ends
    exact ⟨nofun, fun late => absurd late (by omega)⟩
  | seed moved full =>
    obtain ⟨ends, ds, hd, count, -⟩ := h
    have length := length_of_changes hd ends
    exact ⟨fun _ => by omega, fun _ => rfl⟩
  | move =>
    obtain ⟨ends, ds, hd, long, -⟩ := h
    have length := length_of_changes hd ends
    exact ⟨fun _ => by omega, fun _ => rfl⟩

theorem rsiValues_isSome_iff (h : rsiValues period closes = .ok values) (index : ℕ) :
    (values.at? index).isSome ↔ index < closes.length ∧ (rsi period).WarmAt index := by
  unfold rsiValues at h
  rw [WarmAt]
  split at h
  · next short =>
    cases h
    rw [at?_undefined]
    refine ⟨nofun, fun warm => ?_⟩
    omega
  · next long =>
    rw [not_or] at long
    rw [and_iff_right (Nat.one_le_iff_ne_zero.2 long.1)]
    refine at?_iff_of_scan period (fun seen m => m.Over period seen) rfl ?_ ?_ h index
    · exact fun _ _ _ _ _ known hs => known.step long.1 (Momentum.step_of_advance hs)
    · exact fun _ _ _ _ _ known hs => known.isSome_iff long.1 (Momentum.step_of_advance hs)

theorem rsiValues_comparesChanges (hp : period ≠ 0) (h : rsiValues period closes = .ok values) :
    ComparesChanges period closes values := by
  intro i hi warm
  obtain ⟨v, here⟩ : ∃ v, values.at? i = some v := by
    rw [← Option.isSome_iff_exists, rsiValues_isSome_iff h]
    exact ⟨hi, Nat.pos_of_ne_zero hp, warm⟩
  unfold rsiValues at h
  rw [if_neg (by omega)] at h
  obtain ⟨last, gain, loss, hm, shows⟩ := exists_showsStrength h here
  have start : Momentum.start.Over period [] := rfl
  have known : (Momentum.averaging last gain loss).Over period (closes.take (i + 1)) :=
    stateAfter_induction (fun seen m => Momentum.Over period seen m)
      (fun _ _ _ _ _ known hs => known.step hp (Momentum.step_of_advance hs)) _ start hm
  obtain ⟨-, ds, hd, -, averageGain, averageLoss⟩ := known
  exact ⟨ds, gain, loss, v, hd, averageGain, averageLoss, shows.shown, here⟩

end Strength

/-! ## All indicators -/

/-- Unless an operation overflows, an indicator has one entry per close, defined exactly where its
warm-up is over. An exponential average starts as the simple one and then follows the closes; a
strength index compares the averages of the changes. -/
theorem exists_values_after_warmUp (i : Indicator) (closes : List Decimal)
    (fits : ∀ fault, i.values closes = .error fault → fault = .zeroDivisor) :
    ∃ values, i.values closes = .ok values ∧ values.length = closes.length ∧
      (∀ index, (values.at? index).isSome ↔ index < closes.length ∧ i.WarmAt index) ∧
      (∀ period, 1 ≤ period → i = .ema period → FollowsCloses period closes values) ∧
      ∀ period, 1 ≤ period → i = .rsi period → ComparesChanges period closes values := by
  obtain ⟨values, h⟩ := (safe_values closes i).exists_ok fits
  refine ⟨values, h, length_values h, fun index => ?_, ?_, ?_⟩
  · cases i with
    | price => exact priceValues_isSome_iff h index
    | sma period => exact smaValues_isSome_iff h index
    | ema period => exact emaValues_isSome_iff h index
    | rsi period => exact rsiValues_isSome_iff h index
  · rintro period hp rfl
    exact emaValues_followsCloses (Nat.one_le_iff_ne_zero.1 hp) h
  · rintro period hp rfl
    exact rsiValues_comparesChanges (Nat.one_le_iff_ne_zero.1 hp) h

/-- Over four closes with a period of two: an average from the second close on, the index from the
third. -/
theorem exists_values_of_four_closes :
    let closes : List Decimal := [.one, .hundred, .one, .hundred]
    ∃ averages strengths, emaValues 2 closes = .ok averages ∧ rsiValues 2 closes = .ok strengths ∧
      averages.map (·.map Decimal.shortText) = [none, some "50.5", some "17.499999999999999999999999998",
        some "72.500000000000000000000000001"] ∧
      strengths.map (·.map Decimal.shortText) = [none, none, some "50", some "75"] ∧
      FollowsCloses 2 closes averages ∧ ComparesChanges 2 closes strengths := by
  intro closes
  have outcome : (emaValues 2 closes).toOption.map (·.map (·.map Decimal.shortText)) =
      some [none, some "50.5", some "17.499999999999999999999999998",
        some "72.500000000000000000000000001"] := by decide +kernel
  have outcome' : (rsiValues 2 closes).toOption.map (·.map (·.map Decimal.shortText)) =
      some [none, none, some "50", some "75"] := by decide +kernel
  obtain ⟨averages, ha, shown⟩ := exists_of_toOption_map outcome
  obtain ⟨strengths, hs, shown'⟩ := exists_of_toOption_map outcome'
  have fits {values : Values} {i : Indicator} (h : i.values closes = .ok values) :
      ∀ fault, i.values closes = .error fault → fault = .zeroDivisor := by
    rw [h]
    exact nofun
  obtain ⟨values, hv, -, -, follows, -⟩ := exists_values_after_warmUp (.ema 2) closes (fits ha)
  obtain ⟨values', hv', -, -, -, compares⟩ := exists_values_after_warmUp (.rsi 2) closes (fits hs)
  cases ha.symm.trans hv
  cases hs.symm.trans hv'
  exact ⟨averages, strengths, ha, hs, shown, shown', follows 2 (by decide) rfl,
    compares 2 (by decide) rfl⟩

end Backtest.Indicator
