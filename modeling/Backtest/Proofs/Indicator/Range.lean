/-
No indicator overflows on closes within a limit that leaves room for its multiples up to a
hundredfold, and up to one more than the period. Sums of closes stay within the multiple of the
limit by their number, averages within the limit itself, however often they are moved: the
exponential average by `Decimal.Headroom.exists_approach`, the averages of gains and losses because
`period - 1` limits and one change are `period` limits at most, of which a part is one. The strength
index takes the hundredfold of an average.
-/
import Backtest.Proofs.Decimal.Headroom
import Backtest.Proofs.Indicator.Averages
import Backtest.Proofs.Indicator.Mean
import Backtest.Proofs.Indicator.Momentum
import Backtest.Proofs.Indicator.Strength

namespace Backtest

open Decimal (Headroom Upto upto_one upto_zero)

/-- Positive closes on ticks, up to a limit of which the multiple by `factor` is below `2 ^ 96`
ticks. -/
structure ClosesWithin (factor scale : ℕ) (limit : ℚ) (closes : List Decimal) : Prop where
  headroom : Headroom factor scale limit
  positive : ∀ c ∈ closes, c.IsPositive
  onTick : ∀ c ∈ closes, OnTick scale c.toRat
  le_limit : ∀ c ∈ closes, c.toRat ≤ limit

namespace ClosesWithin

variable {factor scale n : ℕ} {limit : ℚ} {closes : List Decimal}

theorem upto (h : ClosesWithin factor scale limit closes) {close : Decimal} (hc : close ∈ closes) :
    Upto limit 1 close :=
  upto_one.2 ⟨(Decimal.isPositive_iff.1 (h.positive close hc)).le, h.le_limit close hc⟩

theorem take (h : ClosesWithin factor scale limit closes) (n : ℕ) :
    ClosesWithin factor scale limit (closes.take n) :=
  ⟨h.headroom, fun c hc => h.positive c (List.mem_of_mem_take hc),
    fun c hc => h.onTick c (List.mem_of_mem_take hc),
    fun c hc => h.le_limit c (List.mem_of_mem_take hc)⟩

/-- As many closes as the limit has multiples sum up exactly. -/
theorem exactSums (h : ClosesWithin factor scale limit closes) (hn : n ≤ factor) :
    ExactSums scale n closes := by
  refine ⟨h.headroom.scale_le, h.positive, h.onTick, fun run hr length => ?_⟩
  have sum := (total_between fun c hc =>
    upto_one.1 (h.upto (hr.mem hc)) : _ ∧ total run ≤ run.length * limit).2
  have fewer : run.length ≤ factor := by
    rw [length]
    exact (min_le_left _ _).trans hn
  have unit : (0 : ℚ) ≤ 10 ^ scale := by positivity
  exact lt_of_le_of_lt (mul_le_mul_of_nonneg_right sum unit) (h.headroom.multiple_lt fewer)

end ClosesWithin

namespace Indicator

variable {factor period scale : ℕ} {limit : ℚ} {closes seen rest : List Decimal} {close : Decimal}

/-! ## Exponential average -/

/-- After some closes their sum is within as many limits, or the average within one. -/
def Trend.Within (limit : ℚ) (period : ℕ) (seen : List Decimal) : Trend → Prop
  | .warming count sum => count = seen.length ∧ count < period ∧ Upto limit count sum
  | .moving average => Upto limit 1 average

/-- What is shown is within the limit. -/
def ShowsWithin (limit : ℚ) (shown : Option Decimal) : Prop :=
  ∀ v, shown = some v → Upto limit 1 v

theorem Trend.Within.exists_advance {t : Trend} {fraction : Decimal}
    (ht : t.Within limit period seen) (hk : 0 ≤ fraction.toRat ∧ fraction.toRat ≤ 1)
    (h : Headroom factor scale limit) (hf : 10 ≤ factor) (hp : period ≤ factor)
    (hc : Upto limit 1 close) :
    ∃ t' shown, t.advance period fraction close = .ok (t', shown) ∧
      t'.Within limit period (seen ++ [close]) ∧ ShowsWithin limit shown := by
  cases t with
  | warming count sum =>
    obtain ⟨length, short, upto⟩ := ht
    obtain ⟨sum', hs, upto'⟩ := h.exists_add upto hc (by omega)
    by_cases next : count + 1 < period
    · refine ⟨.warming (count + 1) sum', none, (TrendStep.warm hs next).advance_eq_ok, ?_, nofun⟩
      exact ⟨by simp [length], next, upto'⟩
    · have full : count + 1 = period := by omega
      rw [full] at upto'
      obtain ⟨average, ha, within⟩ := h.exists_part upto' (by omega) (by omega)
      refine ⟨.moving average, some average, (TrendStep.seed hs full.ge ha).advance_eq_ok,
        within, ?_⟩
      rintro v ⟨⟩
      exact within
  | moving average =>
    obtain ⟨distance, part, average', hd, hm, ha, within⟩ := h.exists_approach hf hk ht hc
    refine ⟨.moving average', some average', (TrendStep.move hd hm ha).advance_eq_ok, within, ?_⟩
    rintro v ⟨⟩
    exact within

/-- The fraction by which the average moves is one of the distance. -/
theorem exists_ratio (hp : period ≠ 0) :
    ∃ fraction, Decimal.ratio 2 (period + 1) = .ok fraction ∧
      0 ≤ fraction.toRat ∧ fraction.toRat ≤ 1 := by
  have whole : (1 : ℚ) ≤ period := by exact_mod_cast Nat.one_le_iff_ne_zero.2 hp
  have nonneg : 0 ≤ ((2 : ℕ) : ℚ) / ((period + 1 : ℕ) : ℚ) := by positivity
  have le_one : ((2 : ℕ) : ℚ) / ((period + 1 : ℕ) : ℚ) ≤ 1 := by
    push_cast
    rw [div_le_one (by linarith)]
    linarith
  obtain ⟨fraction, hk⟩ := Decimal.exists_nearest?_of_le (b := .one) nonneg
    (by rw [Decimal.toRat_one]; exact le_one)
  refine ⟨fraction, ?_, Decimal.nonneg_of_nearest? hk nonneg, Decimal.le_one_of_nearest? hk le_one⟩
  unfold Decimal.ratio
  rw [if_neg (Nat.succ_ne_zero period)]
  exact Decimal.rounded_eq_ok_iff.2 hk

theorem exists_emaValues (hp : period ≠ 0) (h : ClosesWithin factor scale limit closes)
    (hf : 10 ≤ factor) (hpf : period ≤ factor) :
    ∃ values, emaValues period closes = .ok values ∧
      ∀ i v, values.at? i = some v → Upto limit 1 v := by
  obtain ⟨fraction, hr, hk⟩ := exists_ratio hp
  have advances : ∀ seen close rest (t : Trend), closes = seen ++ close :: rest →
      t.Within limit period seen → ∃ t' shown, t.advance period fraction close = .ok (t', shown) ∧
        t'.Within limit period (seen ++ [close]) ∧ ShowsWithin limit shown := by
    intro seen close rest t hc ht
    have member : close ∈ closes := hc ▸ List.mem_append_cons_self
    exact ht.exists_advance hk h.headroom hf hpf (h.upto member)
  have start : (Trend.warming 0 .zero).Within limit period [] :=
    ⟨rfl, Nat.pos_of_ne_zero hp, upto_zero limit⟩
  obtain ⟨values, -, hv, -, -, shows⟩ := exists_scan_of_advances
    (fun seen (t : Trend) => t.Within limit period seen) (fun _ shown => ShowsWithin limit shown)
    advances closes (List.nil_append closes).symm start
  refine ⟨values, ?_, fun i v hi => ?_⟩
  · unfold emaValues
    rw [if_neg hp]
    exact bind_eq_ok_iff.2 ⟨fraction, hr, hv⟩
  · exact shows i (some v) (Option.join_eq_some_iff.1 hi) v rfl

/-! ## Strength index -/

/-- After some closes gains and losses are within as many limits as there were changes, or their
averages within one; and so is the last close. -/
def Momentum.Within (limit : ℚ) (period : ℕ) (seen : List Decimal) : Momentum → Prop
  | .start => seen = []
  | .summing changes last gain loss => seen.length = changes + 1 ∧ changes < period ∧
      Upto limit 1 last ∧ Upto limit changes gain ∧ Upto limit changes loss
  | .averaging last gain loss => period < seen.length ∧
      Upto limit 1 last ∧ Upto limit 1 gain ∧ Upto limit 1 loss

theorem exists_strength (h : Headroom factor scale limit) (hf : 100 ≤ factor) {gain loss : Decimal}
    (hg : Upto limit 1 gain) (hl : Upto limit 1 loss) : ∃ v, strength gain loss = .ok v := by
  by_cases some_loss : loss.magnitude = 0
  · exact ⟨.hundred, strength_of_no_loss some_loss gain⟩
  · have hundredfold : 0 ≤ 100 * gain.toRat ∧ 100 * gain.toRat ≤ (100 : ℕ) * limit := by
      have := (upto_one.1 hg).2
      exact ⟨mul_nonneg (by norm_num) hg.1, by push_cast; linarith⟩
    obtain ⟨share, hs, -⟩ := h.exists_upto hf hundredfold.1 hundredfold.2
    rw [← Decimal.toRat_hundred] at hs
    obtain ⟨total, ht, -⟩ := h.exists_add hg hl (by omega)
    have hs := Decimal.mul_eq_ok_iff.2 hs
    have positive := add_pos_of_loss hg.1 hl.1 some_loss ht
    have part : gain.toRat ≤ total.toRat := by
      refine Decimal.le_toRat_of_nearest? (Decimal.add_eq_ok_iff.1 ht) ?_
      linarith [hl.1]
    have percent : share.toRat / total.toRat ≤ 100 := by
      rw [Decimal.toRat_hundred_mul hs, div_le_iff₀ positive]
      linarith
    have nonneg : 0 ≤ share.toRat / total.toRat := by
      rw [Decimal.toRat_hundred_mul hs]
      exact div_nonneg hundredfold.1 positive.le
    obtain ⟨v, hv⟩ := Decimal.exists_nearest?_of_le (b := .hundred) nonneg
      (by rw [Decimal.toRat_hundred]; exact percent)
    have divisor : total.magnitude ≠ 0 := fun none =>
      positive.ne' (Decimal.magnitude_eq_zero_iff.1 none)
    exact ⟨v, (strength_eq_ok_iff some_loss).2
      ⟨share, total, hs, ht, Decimal.div_eq_ok_iff.2 ⟨divisor, hv⟩⟩⟩

/-- `period - 1` limits and one change have `period` limits as their sum at most. -/
theorem exists_smooth (h : Headroom factor scale limit) (hp : period ≠ 0) (hpf : period ≤ factor)
    {average change : Decimal} (ha : Upto limit 1 average) (hc : Upto limit 1 change) :
    ∃ average', smooth period average change = .ok average' ∧ Upto limit 1 average' := by
  obtain ⟨weighted, hw, upto⟩ := h.exists_times (n := period - 1) ha (by omega)
  obtain ⟨total, ht, upto⟩ := h.exists_add upto hc (by omega)
  rw [Nat.sub_add_cancel (Nat.one_le_iff_ne_zero.2 hp)] at upto
  obtain ⟨average', hav, within⟩ := h.exists_part upto hp (by omega)
  exact ⟨average', bind_eq_ok_iff.2 ⟨weighted, hw, bind_eq_ok_iff.2 ⟨total, ht, hav⟩⟩, within⟩

/-- Whatever the state, there is a step for the close that comes. -/
theorem Momentum.Within.exists_step {m : Momentum} (hm : m.Within limit period seen)
    (hp : period ≠ 0) (h : Headroom factor scale limit) (hf : 100 ≤ factor) (hpf : period ≤ factor)
    (hc : Upto limit 1 close) : ∃ m' shown, MomentumStep period m close m' shown ∧
      m'.Within limit period (seen ++ [close]) := by
  have length : (seen ++ [close]).length = seen.length + 1 := by simp
  cases m with
  | start =>
    refine ⟨_, none, .start close, ?_, Nat.pos_of_ne_zero hp, hc, upto_zero limit, upto_zero limit⟩
    rw [length, hm]
    rfl
  | summing changes last gain loss =>
    obtain ⟨count, short, hlast, hg, hl⟩ := hm
    obtain ⟨change, moved, up, down⟩ := h.exists_change (by omega) hlast hc
    obtain ⟨gains, gained, uptoGains⟩ := h.exists_add hg up (by omega)
    obtain ⟨losses, lost, uptoLosses⟩ := h.exists_add hl down (by omega)
    by_cases next : changes + 1 < period
    · refine ⟨_, none, .sum moved next gained lost, ?_, next, hc, uptoGains, uptoLosses⟩
      rw [length, count]
    · -- the first averages
      have full : changes + 1 = period := by omega
      rw [full] at uptoGains uptoLosses
      obtain ⟨gain', averageGain, withinGain⟩ := h.exists_part uptoGains hp (by omega)
      obtain ⟨loss', averageLoss, withinLoss⟩ := h.exists_part uptoLosses hp (by omega)
      obtain ⟨v, shown⟩ := exists_strength h hf withinGain withinLoss
      refine ⟨_, some v, .seed moved next gained averageGain lost averageLoss shown, ?_, hc,
        withinGain, withinLoss⟩
      omega
  | averaging last gain loss =>
    obtain ⟨long, hlast, hg, hl⟩ := hm
    obtain ⟨change, moved, up, down⟩ := h.exists_change (by omega) hlast hc
    obtain ⟨gain', gained, withinGain⟩ := exists_smooth h hp hpf hg up
    obtain ⟨loss', lost, withinLoss⟩ := exists_smooth h hp hpf hl down
    obtain ⟨v, shown⟩ := exists_strength h hf withinGain withinLoss
    refine ⟨_, some v, .move moved gained lost shown, ?_, hc, withinGain, withinLoss⟩
    omega

/-- The closes have gains and losses within the limit, and the scan of them has values. -/
theorem exists_momentum (hp : period ≠ 0) (h : ClosesWithin factor scale limit closes)
    (hf : 100 ≤ factor) (hpf : period ≤ factor) :
    ∃ values m, scan (Momentum.advance period) .start closes = .ok values ∧
      Momentum.after period closes = .ok m ∧ m.Within limit period closes := by
  have advances : ∀ seen close rest (m : Momentum), closes = seen ++ close :: rest →
      m.Within limit period seen → ∃ m' shown, m.advance period close = .ok (m', shown) ∧
        m'.Within limit period (seen ++ [close]) ∧ True := by
    intro seen close rest m hc hm
    have member : close ∈ closes := hc ▸ List.mem_append_cons_self
    obtain ⟨m', shown, step, within⟩ := hm.exists_step hp h.headroom hf hpf (h.upto member)
    exact ⟨m', shown, step.advance_eq_ok, within, trivial⟩
  have start : Momentum.start.Within limit period [] := rfl
  obtain ⟨values, m, hv, hm, within, -⟩ := exists_scan_of_advances
    (fun seen (m : Momentum) => m.Within limit period seen) (fun _ _ => True)
    advances closes (List.nil_append closes).symm start
  exact ⟨values, m, hv, hm, within⟩

theorem exists_rsiValues (hp : period ≠ 0) (h : ClosesWithin factor scale limit closes)
    (hf : 100 ≤ factor) (hpf : period ≤ factor) :
    ∃ values, rsiValues period closes = .ok values := by
  unfold rsiValues
  split
  · exact ⟨_, rfl⟩
  · obtain ⟨values, -, hv, -⟩ := exists_momentum hp h hf hpf
    exact ⟨values, hv⟩

/-! ## All indicators -/

/-- Closes within a limit that leaves room for its multiples give every indicator its values. Those
of the exponential average are within the limit, and so are the averages of gains and losses from
the first ones on. -/
theorem values_of_closesWithin (hp : period ≠ 0)
    (h : ClosesWithin (max (period + 1) 100) scale limit closes) :
    (∀ i ∈ [price, sma period, ema period, rsi period], ∃ values, i.values closes = .ok values) ∧
      (∀ values i v, (ema period).values closes = .ok values → values.at? i = some v →
        0 ≤ v.toRat ∧ v.toRat ≤ limit) ∧
      ∀ n, period < n → n ≤ closes.length → ∃ last gain loss,
        Momentum.after period (closes.take n) = .ok (.averaging last gain loss) ∧
        (0 ≤ gain.toRat ∧ gain.toRat ≤ limit) ∧ 0 ≤ loss.toRat ∧ loss.toRat ≤ limit := by
  have hundred : 100 ≤ max (period + 1) 100 := le_max_right _ _
  have more : period + 1 ≤ max (period + 1) 100 := le_max_left _ _
  obtain ⟨emas, he, within⟩ := exists_emaValues hp h (by omega) (by omega)
  refine ⟨fun i hi => ?_, fun values i v hv hi => ?_, fun n warm hn => ?_⟩
  · simp only [List.mem_cons, List.not_mem_nil, or_false] at hi
    rcases hi with rfl | rfl | rfl | rfl
    · exact ⟨closes.map some, rfl⟩
    · obtain ⟨values, hv, -⟩ := exists_smaValues hp (h.exactSums more)
      exact ⟨values, hv⟩
    · exact ⟨emas, he⟩
    · exact exists_rsiValues hp h hundred (by omega)
  · cases he.symm.trans hv
    exact upto_one.1 (within i v hi)
  · obtain ⟨-, m, -, hm, state⟩ := exists_momentum hp (h.take n) hundred (by omega)
    have length : (closes.take n).length = n := List.length_take_of_le hn
    -- after so many closes the first changes are averaged
    cases m with
    | start =>
      rw [state] at length
      exact absurd length (by rw [List.length_nil]; omega)
    | summing => exact absurd state.1 (by have := state.2.1; omega)
    | averaging last gain loss =>
      exact ⟨last, gain, loss, hm, upto_one.1 state.2.2.1, upto_one.1 state.2.2.2⟩

/-- Over closes up to the largest limit that there is on ticks of one, with a period of two. -/
theorem values_of_closes_at_limit :
    let largest : Decimal := ⟨false, 792281625142643375935439503, 0, by decide, by decide⟩
    let closes : List Decimal := [largest, .one, largest, largest]
    ClosesWithin (max (2 + 1) 100) 0 792281625142643375935439503 closes ∧
      (∀ i ∈ [price, sma 2, ema 2, rsi 2], ∃ values, i.values closes = .ok values) ∧
      (∀ values i v, (ema 2).values closes = .ok values → values.at? i = some v →
        0 ≤ v.toRat ∧ v.toRat ≤ 792281625142643375935439503) ∧
      ∀ n, 2 < n → n ≤ 4 → ∃ last gain loss,
        Momentum.after 2 (closes.take n) = .ok (.averaging last gain loss) ∧
        (0 ≤ gain.toRat ∧ gain.toRat ≤ 792281625142643375935439503) ∧
        0 ≤ loss.toRat ∧ loss.toRat ≤ 792281625142643375935439503 := by
  intro largest closes
  have within : ClosesWithin (max (2 + 1) 100) 0 792281625142643375935439503 closes := by
    refine ⟨⟨by decide, by norm_num, ⟨792281625142643375935439503, by norm_num⟩, ?_⟩,
      by decide +kernel, fun c hc => ?_, by decide +kernel⟩
    · norm_num [Decimal.bound]
    · have whole : ∀ c ∈ closes, c.scale = 0 := by decide
      exact whole c hc ▸ Decimal.onTick_toRat c
  exact ⟨within, values_of_closesWithin (by decide) within⟩

end Indicator
end Backtest
