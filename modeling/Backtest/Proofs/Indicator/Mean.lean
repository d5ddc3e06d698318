/-
The simple average is the mean of its window, rounded once. The sum of the window is kept up to date
by adding the close that comes and taking off the one that leaves. On ticks both are exact as long
as the closes in between, one more than the period, sum up to less than `2 ^ 96` ticks (`ExactSums`).
So the sum never drifts, however long the series. Without that room the sum is rounded already, and
the mean is rounded a second time.
-/
import Backtest.Indicator.Average
import Backtest.Proofs.Decimal.Tick
import Backtest.Proofs.Indicator.Averages
import Backtest.Proofs.Indicator.Scan
import Mathlib.Algebra.BigOperators.Group.List.Basic
import Mathlib.Data.Finset.Max

namespace Backtest

/-! ## Sums -/

/-- The exact sum of some closes. -/
def total (closes : List Decimal) : ℚ :=
  (closes.map Decimal.toRat).sum

@[simp] theorem total_nil : total [] = 0 := rfl

@[simp] theorem total_cons (close : Decimal) (rest : List Decimal) :
    total (close :: rest) = close.toRat + total rest := by
  simp [total]

@[simp] theorem total_append (xs ys : List Decimal) : total (xs ++ ys) = total xs + total ys := by
  simp [total]

theorem total_nonneg {closes : List Decimal} (h : ∀ c ∈ closes, c.IsPositive) :
    0 ≤ total closes := by
  induction closes with
  | nil => exact le_rfl
  | cons close rest ih =>
    obtain ⟨first, later⟩ := List.forall_mem_cons.1 h
    rw [total_cons]
    exact add_nonneg (Decimal.isPositive_iff.1 first).le (ih later)

theorem onTick_total {scale : ℕ} {closes : List Decimal} (h : ∀ c ∈ closes, OnTick scale c.toRat) :
    OnTick scale (total closes) := by
  induction closes with
  | nil => exact .zero scale
  | cons close rest ih =>
    obtain ⟨first, later⟩ := List.forall_mem_cons.1 h
    rw [total_cons]
    exact first.add (ih later)

/-- A sum of closes lies between the multiples of two bounds on them. -/
theorem total_between {closes : List Decimal} {low high : ℚ}
    (h : ∀ c ∈ closes, low ≤ c.toRat ∧ c.toRat ≤ high) :
    closes.length * low ≤ total closes ∧ total closes ≤ closes.length * high := by
  induction closes with
  | nil => simp
  | cons close rest ih =>
    obtain ⟨⟨least, greatest⟩, later⟩ := List.forall_mem_cons.1 h
    obtain ⟨lower, upper⟩ := ih later
    rw [total_cons, List.length_cons]
    push_cast
    constructor <;> linarith

/-! ## Runs of closes -/

/-- A run of consecutive entries is part of every longer length of them that there is. -/
theorem exists_longer_run {α : Type} {xs run : List α} {n : ℕ} (h : run <:+: xs)
    (hn : run.length ≤ n) (hx : n ≤ xs.length) : ∃ before after,
      before ++ run ++ after <:+: xs ∧ (before ++ run ++ after).length = n := by
  obtain ⟨left, right, rfl⟩ := h
  simp only [List.length_append] at hx
  -- entries on the right first, as far as there are any
  by_cases hr : n ≤ run.length + right.length
  · refine ⟨[], right.take (n - run.length), ⟨left, right.drop (n - run.length), ?_⟩, ?_⟩
    · simp
    · simp
      omega
  · refine ⟨left.drop (left.length + run.length + right.length - n), right,
      ⟨left.take (left.length + run.length + right.length - n), [], ?_⟩, ?_⟩
    · simp only [← List.append_assoc, List.take_append_drop, List.append_nil]
    · simp only [List.length_append, List.length_drop]
      omega

/-- Positive closes on ticks, of which any `n` consecutive ones, or all if there are fewer, sum up
to less than `2 ^ 96` ticks. -/
structure ExactSums (scale n : ℕ) (closes : List Decimal) : Prop where
  scale_le : scale ≤ 28
  positive : ∀ c ∈ closes, c.IsPositive
  onTick : ∀ c ∈ closes, OnTick scale c.toRat
  room : ∀ run, run <:+: closes → run.length = min n closes.length →
    total run * 10 ^ scale < Decimal.bound

namespace ExactSums

variable {scale n : ℕ} {closes run : List Decimal}

theorem nonneg (h : ExactSums scale n closes) (hr : run <:+: closes) : 0 ≤ total run :=
  total_nonneg fun c hc => h.positive c (hr.mem hc)

theorem onTick_total (h : ExactSums scale n closes) (hr : run <:+: closes) :
    OnTick scale (total run) :=
  Backtest.onTick_total fun c hc => h.onTick c (hr.mem hc)

/-- A shorter run of positive closes sums up to less. -/
theorem total_lt (h : ExactSums scale n closes) (hr : run <:+: closes) (hn : run.length ≤ n) :
    total run * 10 ^ scale < Decimal.bound := by
  obtain ⟨before, after, hi, hl⟩ :=
    exists_longer_run hr (le_min hn hr.length_le) (min_le_right n closes.length)
  have longer := h.room _ hi hl
  have left := h.nonneg ((List.prefix_append before _).isInfix.trans (by rwa [← List.append_assoc]))
  have right := h.nonneg ((List.suffix_append (before ++ run) after).isInfix.trans hi)
  rw [total_append, total_append] at longer
  have unit : (0 : ℚ) < 10 ^ scale := by positivity
  have := mul_nonneg left unit.le
  have := mul_nonneg right unit.le
  linarith

end ExactSums

namespace Indicator

/-! ## The window -/

/-- The closes in the window after some closes: the last `period` of them, as far as there are. -/
def lastCloses (period : ℕ) (seen : List Decimal) : List Decimal :=
  seen.drop (seen.length - period)

section LastCloses

variable {period : ℕ} {seen : List Decimal}

theorem lastCloses_suffix (period : ℕ) (seen : List Decimal) : lastCloses period seen <:+ seen :=
  List.drop_suffix _ _

theorem length_lastCloses (period : ℕ) (seen : List Decimal) :
    (lastCloses period seen).length = min seen.length period := by
  unfold lastCloses
  rw [List.length_drop]
  omega

theorem lastCloses_of_length_le (h : seen.length ≤ period) : lastCloses period seen = seen := by
  unfold lastCloses
  rw [Nat.sub_eq_zero_of_le h, List.drop_zero]

/-- A full window loses its first close to the one that comes. -/
theorem exists_lastCloses_concat (hp : period ≠ 0) (h : period ≤ seen.length) (close : Decimal) :
    ∃ left kept, lastCloses period seen = left :: kept ∧
      lastCloses period (seen ++ [close]) = kept ++ [close] := by
  rcases hw : lastCloses period seen with _ | ⟨left, kept⟩
  · have length := length_lastCloses period seen
    rw [hw, Nat.min_eq_right h] at length
    exact absurd length.symm hp
  · refine ⟨left, kept, rfl, ?_⟩
    unfold lastCloses at hw ⊢
    have next : (seen ++ [close]).length - period = seen.length - period + 1 := by
      rw [List.length_append, List.length_singleton]
      omega
    rw [next, List.drop_append_of_le_length (by omega), ← List.tail_drop, hw, List.tail_cons]

theorem lastCloses_one (seen : List Decimal) (close : Decimal) :
    lastCloses 1 (seen ++ [close]) = [close] := by
  unfold lastCloses
  rw [List.length_append, List.length_singleton, Nat.add_sub_cancel, List.drop_left]

end LastCloses

/-! ## One close -/

/-- What a window is after some of the closes: how many it holds, the exact sum of the last ones,
and the closes from the first of those on. -/
structure Window.Over (period : ℕ) (closes seen : List Decimal) (w : Window) : Prop where
  filled : w.filled = min seen.length period
  sum : w.sum.toRat = total (lastCloses period seen)
  leaving : w.leaving = closes.drop (seen.length - period)

/-- What the simple average shows after some closes: the mean of the last ones, rounded once, if
they fill the period. -/
def ShowsMean (period : ℕ) (seen : List Decimal) (shown : Option Decimal) : Prop :=
  if seen.length < period then shown = none
  else ∃ v, shown = some v ∧ Decimal.nearest? (total (lastCloses period seen) / period) = some v

section Slide

variable {period scale : ℕ} {closes seen rest : List Decimal} {close sum : Decimal} {w : Window}

/-- The mean of positive closes can be rounded. -/
theorem exists_part_of_nonneg (hp : period ≠ 0) (h : 0 ≤ sum.toRat) :
    ∃ v, sum.part period = .ok v ∧ Decimal.nearest? (sum.toRat / period) = some v := by
  have whole : (1 : ℚ) ≤ period := by exact_mod_cast Nat.one_le_iff_ne_zero.2 hp
  obtain ⟨v, hv⟩ := Decimal.exists_nearest?_of_le (div_nonneg h (Nat.cast_nonneg period))
    (div_le_self h whole)
  exact ⟨v, Decimal.part_eq_ok_iff.2 ⟨hp, hv⟩, hv⟩

theorem isInfix_seen_concat (hc : closes = seen ++ close :: rest) : seen ++ [close] <:+: closes :=
  ⟨[], rest, by simp [hc]⟩

namespace Window.Over

/-- The close that comes is added exactly: with it there is one close more than the period. -/
theorem exists_add (hw : w.Over period closes seen) (h : ExactSums scale (period + 1) closes)
    (hc : closes = seen ++ close :: rest) :
    ∃ sum, w.sum.add close = .ok sum ∧ sum.toRat = total (lastCloses period seen ++ [close]) := by
  have run : lastCloses period seen ++ [close] <:+: closes := by
    obtain ⟨before, hb⟩ := lastCloses_suffix period seen
    refine List.IsInfix.trans ⟨before, [], ?_⟩ (isInfix_seen_concat hc)
    rw [List.append_nil, ← List.append_assoc, hb]
  have length : (lastCloses period seen ++ [close]).length ≤ period + 1 := by
    rw [List.length_append, length_lastCloses]
    exact Nat.succ_le_succ (min_le_right _ _)
  have sum : total (lastCloses period seen ++ [close]) = w.sum.toRat + close.toRat := by
    rw [total_append, total_cons, total_nil, add_zero, hw.sum]
  have small := h.total_lt run length
  rw [← abs_of_nonneg (h.nonneg run)] at small
  rw [sum] at small ⊢
  have tick : OnTick scale w.sum.toRat := by
    rw [hw.sum]
    exact h.onTick_total ((List.prefix_append _ _).isInfix.trans run)
  have member : close ∈ closes := hc ▸ List.mem_append_cons_self
  exact Decimal.exists_add_of_onTick h.scale_le tick (h.onTick close member) small

/-- Nothing leaves a window that is not full yet. -/
theorem exists_slide_of_lt (hw : w.Over period closes seen) (hp : period ≠ 0)
    (h : ExactSums scale (period + 1) closes) (hc : closes = seen ++ close :: rest)
    (short : seen.length < period) : ∃ w' shown, w.slide period close = .ok (w', shown) ∧
      w'.Over period closes (seen ++ [close]) ∧ ShowsMean period (seen ++ [close]) shown := by
  obtain ⟨sum, hsum, value⟩ := hw.exists_add h hc
  obtain ⟨count, before, leaving⟩ := w
  have filled : count = seen.length := hw.filled.trans (Nat.min_eq_left short.le)
  have length : (seen ++ [close]).length = seen.length + 1 := by simp
  have window : lastCloses period (seen ++ [close]) = seen ++ [close] :=
    lastCloses_of_length_le (by omega)
  rw [lastCloses_of_length_le short.le, ← window] at value
  have state : Window.Over period closes (seen ++ [close]) ⟨count + 1, sum, leaving⟩ := by
    refine ⟨?_, value, ?_⟩
    · rw [filled, length, Nat.min_eq_left short]
    · refine hw.leaving.trans ?_
      rw [length, Nat.sub_eq_zero_of_le short.le, Nat.sub_eq_zero_of_le short]
  unfold ShowsMean
  rw [length]
  by_cases next : seen.length + 1 < period
  · exact ⟨_, none, (WindowStep.fill hsum (filled ▸ next)).slide_eq_ok, state, if_pos next ▸ rfl⟩
  · have nonneg : 0 ≤ sum.toRat := by
      rw [value, window]
      exact h.nonneg (isInfix_seen_concat hc)
    obtain ⟨v, hv, mean⟩ := exists_part_of_nonneg hp nonneg
    refine ⟨_, some v, (WindowStep.complete hsum (by omega) hv).slide_eq_ok, state, ?_⟩
    rw [if_neg next, ← value]
    exact ⟨v, rfl, mean⟩

/-- The first close of a full window leaves it, and is taken off exactly. -/
theorem exists_slide_of_le (hw : w.Over period closes seen) (hp : period ≠ 0)
    (h : ExactSums scale (period + 1) closes) (hc : closes = seen ++ close :: rest)
    (full : period ≤ seen.length) : ∃ w' shown, w.slide period close = .ok (w', shown) ∧
      w'.Over period closes (seen ++ [close]) ∧ ShowsMean period (seen ++ [close]) shown := by
  obtain ⟨sum, hsum, value⟩ := hw.exists_add h hc
  obtain ⟨left, kept, here, window⟩ := exists_lastCloses_concat hp full close
  obtain ⟨count, before, leaving⟩ := w
  have filled : count = period := hw.filled.trans (Nat.min_eq_right full)
  have length : (seen ++ [close]).length = seen.length + 1 := by simp
  have leaving_eq : leaving = left :: (kept ++ close :: rest) := by
    refine hw.leaving.trans ?_
    rw [hc, List.drop_append_of_le_length (Nat.sub_le _ _)]
    change lastCloses period seen ++ _ = _
    rw [here, List.cons_append]
  subst leaving_eq
  have run : lastCloses period (seen ++ [close]) <:+: closes :=
    (lastCloses_suffix _ _).isInfix.trans (isInfix_seen_concat hc)
  -- what is left is the sum of the new window
  rw [here, List.cons_append, total_cons, ← window] at value
  have rest_sum : sum.toRat - left.toRat = total (lastCloses period (seen ++ [close])) := by
    rw [value, add_sub_cancel_left]
  have member : left ∈ closes := by
    rw [hc]
    refine List.mem_append_left _ ((lastCloses_suffix period seen).mem ?_)
    rw [here]
    exact List.mem_cons_self ..
  have tick : OnTick scale sum.toRat := by
    rw [value]
    exact (h.onTick left member).add (h.onTick_total run)
  have small : |sum.toRat - left.toRat| * 10 ^ scale < Decimal.bound := by
    rw [rest_sum, abs_of_nonneg (h.nonneg run)]
    refine h.total_lt run ?_
    rw [length_lastCloses]
    omega
  obtain ⟨sum', hsub, value'⟩ :=
    Decimal.exists_sub_of_onTick h.scale_le tick (h.onTick left member) small
  rw [rest_sum] at value'
  obtain ⟨v, hv, mean⟩ := exists_part_of_nonneg hp (value' ▸ h.nonneg run)
  unfold ShowsMean
  rw [length]
  refine ⟨_, some v, (WindowStep.slide hsum filled.ge hsub hv).slide_eq_ok, ⟨?_, value', ?_⟩, ?_⟩
  · rw [filled, length, Nat.min_eq_right (by omega)]
  · rw [length, Nat.sub_add_comm full, ← List.tail_drop, ← hw.leaving, List.tail_cons]
  · rw [if_neg (by omega), ← value']
    exact ⟨v, rfl, mean⟩

end Window.Over

end Slide

/-! ## All closes -/

section Values

variable {period scale : ℕ} {closes : List Decimal}

theorem Window.over_start (period : ℕ) (closes : List Decimal) :
    Window.Over period closes [] ⟨0, .zero, closes⟩ := by
  refine ⟨?_, ?_, ?_⟩
  · rw [List.length_nil, Nat.zero_min]
  · rw [lastCloses_of_length_le (Nat.zero_le period), total_nil, Decimal.toRat_zero]
  · rw [List.length_nil, Nat.zero_sub, List.drop_zero]

/-- With exact sums the simple average has values, each the mean of the last closes. -/
theorem exists_smaValues (hp : period ≠ 0) (h : ExactSums scale (period + 1) closes) :
    ∃ values, smaValues period closes = .ok values ∧ ∀ i < closes.length,
      ∃ shown, values[i]? = some shown ∧ ShowsMean period (closes.take (i + 1)) shown := by
  have advances : ∀ seen close rest w, closes = seen ++ close :: rest →
      Window.Over period closes seen w → ∃ w' shown, w.slide period close = .ok (w', shown) ∧
        w'.Over period closes (seen ++ [close]) ∧ ShowsMean period (seen ++ [close]) shown := by
    intro seen close rest w hc hw
    rcases Nat.lt_or_ge seen.length period with short | full
    · exact hw.exists_slide_of_lt hp h hc short
    · exact hw.exists_slide_of_le hp h hc full
  have start := Window.over_start period closes
  obtain ⟨values, -, hv, -, -, shows⟩ := exists_scan_of_advances (Window.Over period closes)
    (ShowsMean period) advances closes (List.nil_append closes).symm start
  refine ⟨values, ?_, fun i hi => ?_⟩
  · unfold smaValues
    rw [if_neg hp, hv]
  · rw [← length_scan hv] at hi
    have here := shows i _ (List.getElem?_eq_getElem hi)
    rw [List.length_nil, Nat.zero_add] at here
    exact ⟨_, List.getElem?_eq_getElem hi, here⟩

/-- Some close of a window is its least, and some its greatest. -/
theorem exists_bounds {window : List Decimal} (hw : window ≠ []) :
    ∃ low ∈ window, ∃ high ∈ window, ∀ c ∈ window, low ≤ c ∧ c ≤ high := by
  have some_close : window.toFinset.Nonempty := List.toFinset_nonempty_iff window |>.2 hw
  obtain ⟨low, hl, least⟩ := window.toFinset.exists_min_image Decimal.toRat some_close
  obtain ⟨high, hh, greatest⟩ := window.toFinset.exists_max_image Decimal.toRat some_close
  simp only [List.mem_toFinset] at hl hh least greatest
  exact ⟨low, hl, high, hh, fun c hc => ⟨least c hc, greatest c hc⟩⟩

/-- A mean lies between any two amounts between which the closes lie. -/
theorem mean_between {window : List Decimal} {low high v : Decimal} (hw : window ≠ [])
    (h : ∀ c ∈ window, low ≤ c ∧ c ≤ high)
    (hv : Decimal.nearest? (total window / window.length) = some v) : low ≤ v ∧ v ≤ high := by
  obtain ⟨lower, upper⟩ := total_between fun c hc =>
    ⟨Decimal.le_iff.1 (h c hc).1, Decimal.le_iff.1 (h c hc).2⟩
  have length : (0 : ℚ) < window.length := by exact_mod_cast List.length_pos_of_ne_nil hw
  constructor
  · refine Decimal.le_toRat_of_nearest? hv ?_
    rw [le_div_iff₀ length]
    linarith
  · refine Decimal.toRat_le_of_nearest? hv ?_
    rw [div_le_iff₀ length]
    linarith

/-- The simple average at every bar from the end of the warm-up on is the exact sum of the closes in
its window over the period, rounded once. So it lies between the least and the greatest of these
closes, and with a period of one it is the close itself. -/
theorem smaValues_are_means (hp : period ≠ 0) (h : ExactSums scale (period + 1) closes) :
    ∃ values, smaValues period closes = .ok values ∧
      ∀ i (hi : i < closes.length), period ≤ i + 1 →
        let window := lastCloses period (closes.take (i + 1))
        ∃ v, values.at? i = some v ∧ Decimal.nearest? (total window / period) = some v ∧
          (∃ low ∈ window, ∃ high ∈ window, (∀ c ∈ window, low ≤ c ∧ c ≤ high) ∧
            low ≤ v ∧ v ≤ high) ∧
          (period = 1 → v.toRat = closes[i].toRat) := by
  obtain ⟨values, hv, shows⟩ := exists_smaValues hp h
  refine ⟨values, hv, fun i hi full => ?_⟩
  intro window
  obtain ⟨shown, here, mean⟩ := shows i hi
  have length : (closes.take (i + 1)).length = i + 1 := List.length_take_of_le hi
  have filled : window.length = period := by
    rw [length_lastCloses, length, Nat.min_eq_right full]
  have some_close : window ≠ [] := by
    intro none
    rw [none] at filled
    exact hp filled.symm
  unfold ShowsMean at mean
  rw [length, if_neg (by omega)] at mean
  obtain ⟨v, rfl, mean⟩ := mean
  obtain ⟨low, hl, high, hh, bounds⟩ := exists_bounds some_close
  have between := mean_between some_close bounds (by rw [filled]; exact mean)
  refine ⟨v, Option.join_eq_some_iff.2 here, mean, ⟨low, hl, high, hh, bounds, between⟩, ?_⟩
  rintro rfl
  -- the window is the close, which is not rounded
  have single : lastCloses 1 (closes.take (i + 1)) = [closes[i]] := by
    rw [List.take_add_one, List.getElem?_eq_getElem hi]
    exact lastCloses_one _ _
  rw [single, total_cons, total_nil, add_zero, Nat.cast_one, div_one] at mean
  exact (Decimal.isNearest_of_nearest? mean).toRat_eq_of_toRat

/-- Over closes of which three sum up to one less than `2 ^ 96`, with a mean of two that has a
fraction, and with a period of one. -/
theorem smaValues_of_largest_closes :
    let close (less : ℕ) (h : 26409387504754779197847983445 - less < Decimal.bound) : Decimal :=
      ⟨false, 26409387504754779197847983445 - less, 0, h, by decide⟩
    let closes := [close 0 (by decide), close 1 (by decide), close 0 (by decide), close 3 (by decide)]
    (ExactSums 0 3 closes ∧ ∃ values, smaValues 2 closes = .ok values ∧
      values.map (·.map Decimal.toRat) = [none, some 26409387504754779197847983444,
        some 26409387504754779197847983444, some 26409387504754779197847983444] ∧
      ∀ i < 4, 2 ≤ i + 1 →
        let window := lastCloses 2 (closes.take (i + 1))
        ∃ v, values.at? i = some v ∧ Decimal.nearest? (total window / (2 : ℕ)) = some v ∧
          ∃ low ∈ window, ∃ high ∈ window, (∀ c ∈ window, low ≤ c ∧ c ≤ high) ∧
            low ≤ v ∧ v ≤ high) ∧
    ExactSums 0 2 closes ∧ ∃ values, smaValues 1 closes = .ok values ∧
      ∀ i (hi : i < 4), ∃ v, values.at? i = some v ∧ v.toRat = closes[i].toRat := by
  intro close closes
  have least : ∀ c ∈ closes, 0 ≤ c.toRat ∧ c.toRat ≤ 26409387504754779197847983445 := by
    decide +kernel
  have sums : ∀ n ≤ 3, ExactSums 0 n closes := by
    refine fun n small => ⟨by decide, by decide +kernel, ?_, fun run hr length => ?_⟩
    · intro c hc
      have whole : ∀ c ∈ closes, c.scale = 0 := by decide
      exact whole c hc ▸ Decimal.onTick_toRat c
    · have sum := (total_between fun c hc => least c (hr.mem hc)).2
      have three : (run.length : ℚ) ≤ 3 := by
        rw [length]
        exact_mod_cast Nat.le_trans (Nat.min_le_left ..) small
      norm_num [Decimal.bound] at sum ⊢
      linarith
  have outcome : (smaValues 2 closes).toOption.map (·.map (·.map Decimal.toRat)) =
      some [none, some 26409387504754779197847983444, some 26409387504754779197847983444,
        some 26409387504754779197847983444] := by decide +kernel
  obtain ⟨values, hv, shown⟩ := exists_of_toOption_map outcome
  obtain ⟨values', hv', means⟩ := smaValues_are_means (show 2 ≠ 0 by decide) (sums 3 (by decide))
  cases hv.symm.trans hv'
  obtain ⟨singles, hs, closed⟩ := smaValues_are_means (show 1 ≠ 0 by decide) (sums 2 (by decide))
  refine ⟨⟨sums 3 (by decide), values, hv, shown, fun i hi full => ?_⟩, sums 2 (by decide), singles,
    hs, fun i hi => ?_⟩
  · obtain ⟨v, here, mean, between, -⟩ := means i hi full
    exact ⟨v, here, mean, between⟩
  · obtain ⟨v, here, -, -, same⟩ := closed i hi (Nat.le_add_left ..)
    exact ⟨v, here, same rfl⟩

/-- Two closes with a sum of more than `2 ^ 96` ticks, and no third: their sum is rounded to ten,
and so the mean of the two is lost. -/
theorem smaValues_of_rounded_sum :
    let closes : List Decimal := [⟨false, 5, 0, by decide, by decide⟩,
      ⟨false, 50000000000000000000000000004, 28, by decide, by decide⟩]
    (∀ c ∈ closes, c.IsPositive ∧ OnTick 28 c.toRat) ∧
      (∀ run, run <:+: closes → run.length = 2 + 1 → total run * 10 ^ 28 < Decimal.bound) ∧
      ∃ values v, smaValues 2 closes = .ok values ∧ values.at? 1 = some v ∧
        Decimal.nearest? (total (lastCloses 2 (closes.take 2)) / (2 : ℕ)) ≠ some v := by
  intro closes
  have outcome : (smaValues 2 closes).toOption.map (fun values =>
      (values.at? 1).map Decimal.toRat) = some (some 5) := by decide +kernel
  obtain ⟨values, hv, five⟩ := exists_of_toOption_map outcome
  obtain ⟨v, here, value⟩ := Option.map_eq_some_iff.1 five
  refine ⟨fun c hc => ?_, fun run hr length => ?_, values, v, hv, here, fun mean => ?_⟩
  · have positive : ∀ c ∈ closes, c.IsPositive := by decide +kernel
    exact ⟨positive c hc, (Decimal.onTick_toRat c).finer c.scale_le⟩
  · have := hr.length_le
    rw [length] at this
    exact absurd this (by decide)
  · have exact_mean : (Decimal.nearest? (total (lastCloses 2 (closes.take 2)) / (2 : ℕ))).map
        Decimal.toRat ≠ some 5 := by decide +kernel
    rw [mean, Option.map_some, value] at exact_mean
    exact exact_mean rfl

end Values

end Indicator
end Backtest
