/-
Amounts between zero and the multiples of a limit. If a multiple of a limit on ticks stays below
`2 ^ 96` ticks (`Headroom`), it and all smaller ones are amounts. So what lies between zero and one
of them can be rounded and is rounded between them (`exists_upto`), and operations that stay within
them do not overflow.

Rounding could take an amount beyond the limit where it is moved towards another one: the distance,
the part of it and the new amount are rounded in turn. It does not, if there is room for one more
digit (`exists_approach`). The worst that can happen is a move by the whole distance to the limit.
That distance is rounded by half a unit in the last place of the limit at most, and in that place
the limit is even, so that a half goes back to it.
-/
import Backtest.Proofs.Decimal.Error
import Backtest.Proofs.Decimal.Tick

namespace Backtest

/-- Half-way or closer to an even whole number, a ratio is rounded to it. -/
theorem nearestEven_eq_of_even {q : ℚ} {n : ℤ} (even : n % 2 = 0) (near : |q - n| ≤ 1 / 2) :
    nearestEven q = n := by
  rcases near.lt_or_eq with closer | half
  · exact nearestEven_eq_of_abs_sub_lt closer
  · unfold nearestEven
    rcases (abs_eq (by norm_num)).1 half with up | down
    · have floor : ⌊q⌋ = n := Int.floor_eq_iff.2 ⟨by linarith, by linarith⟩
      change q.floor = n at floor
      simp only [floor, up, lt_irrefl, if_false, even, if_true]
    · have floor : ⌊q⌋ = n - 1 :=
        Int.floor_eq_iff.2 ⟨by push_cast; linarith, by push_cast; linarith⟩
      change q.floor = n - 1 at floor
      have rest : q - ((n - 1 : ℤ) : ℚ) = 1 / 2 := by push_cast; linarith
      simp only [floor, rest, lt_irrefl, if_false]
      rw [if_neg (by omega)]
      omega

namespace Decimal

/-- Whatever lies between two amounts can be rounded. -/
theorem exists_nearest?_of_between {q : ℚ} {a b : Decimal} (ha : a.toRat ≤ q) (hb : q ≤ b.toRat) :
    ∃ c, nearest? q = some c := by
  rcases le_total 0 q with hq | hq
  · exact exists_nearest?_of_le hq hb
  · exact exists_nearest? a.scale_le ((fits_toRat a).between (fits_zero _) ha hq)

/-- A limit on ticks, of which the multiple by `factor` is below `2 ^ 96` ticks. -/
structure Headroom (factor scale : ℕ) (limit : ℚ) : Prop where
  scale_le : scale ≤ 28
  pos : 0 < limit
  onTick : OnTick scale limit
  room : factor * limit * 10 ^ scale < bound

/-- Between zero and a multiple of the limit. -/
def Upto (limit : ℚ) (n : ℕ) (d : Decimal) : Prop :=
  0 ≤ d.toRat ∧ d.toRat ≤ n * limit

theorem upto_one {limit : ℚ} {d : Decimal} : Upto limit 1 d ↔ 0 ≤ d.toRat ∧ d.toRat ≤ limit := by
  unfold Upto
  rw [Nat.cast_one, one_mul]

theorem upto_zero (limit : ℚ) : Upto limit 0 .zero := by
  unfold Upto
  rw [toRat_zero]
  simp

namespace Headroom

variable {factor scale n m : ℕ} {limit q : ℚ} {a b : Decimal}

theorem multiple_lt (h : Headroom factor scale limit) (hn : n ≤ factor) :
    n * limit * 10 ^ scale < bound := by
  have fewer : (n : ℚ) ≤ factor := by exact_mod_cast hn
  have := h.pos
  exact lt_of_le_of_lt (by gcongr) h.room

/-- The multiples of the limit are amounts. -/
theorem exists_multiple (h : Headroom factor scale limit) (hn : n ≤ factor) :
    ∃ d : Decimal, d.toRat = n * limit := by
  have small := h.multiple_lt hn
  rw [← abs_of_nonneg (mul_nonneg (Nat.cast_nonneg n) h.pos.le)] at small
  obtain ⟨d, -, value⟩ := exists_nearest?_of_onTick h.scale_le (h.onTick.natCast_mul n) small
  exact ⟨d, value⟩

theorem exists_limit (h : Headroom factor scale limit) (hf : 1 ≤ factor) :
    ∃ d : Decimal, d.toRat = limit := by
  obtain ⟨d, value⟩ := h.exists_multiple hf
  rw [Nat.cast_one, one_mul] at value
  exact ⟨d, value⟩

/-- What lies between zero and a multiple of the limit is rounded between them. -/
theorem exists_upto (h : Headroom factor scale limit) (hn : n ≤ factor) (hq : 0 ≤ q)
    (hl : q ≤ n * limit) : ∃ d, nearest? q = some d ∧ Upto limit n d := by
  obtain ⟨most, hm⟩ := h.exists_multiple hn
  rw [← hm] at hl
  obtain ⟨d, hd⟩ := exists_nearest?_of_le hq hl
  exact ⟨d, hd, nonneg_of_nearest? hd hq, hm ▸ toRat_le_of_nearest? hd hl⟩

/-! ## Operations -/

theorem exists_add (h : Headroom factor scale limit) (ha : Upto limit n a) (hb : Upto limit m b)
    (hn : n + m ≤ factor) : ∃ c, a.add b = .ok c ∧ Upto limit (n + m) c := by
  obtain ⟨ha, ha'⟩ := ha
  obtain ⟨hb, hb'⟩ := hb
  obtain ⟨c, hc, upto⟩ := h.exists_upto hn (add_nonneg ha hb)
    (by push_cast; linarith : a.toRat + b.toRat ≤ (n + m : ℕ) * limit)
  exact ⟨c, add_eq_ok_iff.2 hc, upto⟩

theorem exists_times (h : Headroom factor scale limit) (ha : Upto limit 1 a) (hn : n ≤ factor) :
    ∃ c, a.times n = .ok c ∧ Upto limit n c := by
  obtain ⟨ha, ha'⟩ := upto_one.1 ha
  have whole : (0 : ℚ) ≤ n := Nat.cast_nonneg n
  obtain ⟨c, hc, upto⟩ := h.exists_upto hn (mul_nonneg ha whole)
    (by rw [mul_comm]; exact mul_le_mul_of_nonneg_left ha' whole)
  exact ⟨c, times_eq_ok_iff.2 hc, upto⟩

theorem exists_part (h : Headroom factor scale limit) (ha : Upto limit n a) (hn : n ≠ 0)
    (hf : 1 ≤ factor) : ∃ c, a.part n = .ok c ∧ Upto limit 1 c := by
  obtain ⟨ha, ha'⟩ := ha
  have whole : (0 : ℚ) < n := by exact_mod_cast Nat.pos_of_ne_zero hn
  obtain ⟨c, hc, upto⟩ := h.exists_upto hf (div_nonneg ha whole.le)
    (by rw [Nat.cast_one, one_mul, div_le_iff₀ whole]; linarith)
  exact ⟨c, part_eq_ok_iff.2 ⟨hn, hc⟩, upto⟩

/-- The change from one amount to another has at most the size of the limit, either way. -/
theorem exists_change (h : Headroom factor scale limit) (hf : 1 ≤ factor) (ha : Upto limit 1 a)
    (hb : Upto limit 1 b) : ∃ change, b.sub a = .ok change ∧ Upto limit 1 (max change .zero) ∧
      Upto limit 1 (max (-change) .zero) := by
  obtain ⟨most, hm⟩ := h.exists_limit hf
  rw [upto_one] at ha hb
  have down : (-most).toRat ≤ b.toRat - a.toRat := by
    rw [toRat_neg]
    linarith
  have up : b.toRat - a.toRat ≤ most.toRat := by linarith
  obtain ⟨change, hc⟩ := exists_nearest?_of_between down up
  have ge := le_toRat_of_nearest? hc down
  have le := toRat_le_of_nearest? hc up
  rw [toRat_neg] at ge
  refine ⟨change, sub_eq_ok_iff.2 hc, ?_, ?_⟩
  · rw [upto_one, toRat_max, toRat_zero]
    exact ⟨le_sup_right, max_le (by linarith) h.pos.le⟩
  · rw [upto_one, toRat_max, toRat_neg, toRat_zero]
    exact ⟨le_sup_right, max_le (by linarith) h.pos.le⟩

/-! ## Moving towards an amount -/

variable {finest rest : Decimal}

/-- At its finest scale the limit is even, if a digit more has room. -/
theorem even (h : Headroom factor scale limit) (hf : 10 ≤ factor) (hn : IsNearest limit finest)
    (hs : finest.scale < 28) : finest.coefficient % 2 = 0 := by
  have fits {t : ℕ} (ht : scale ≤ t) (room : limit * 10 ^ t < bound) : Fits limit t :=
    fits_of_onTick (h.onTick.finer ht) (by rw [abs_of_nonneg h.pos.le]; exact room)
  have here : limit * 10 ^ scale < bound := by
    have := h.multiple_lt (n := 1) (by omega)
    rwa [Nat.cast_one, one_mul] at this
  have next : limit * 10 ^ (scale + 1) < bound := by
    have := h.multiple_lt hf
    rw [pow_succ]
    push_cast at this
    linarith
  have digits : scale + 1 ≤ finest.scale := by
    have := hn.finest scale h.scale_le (fits le_rfl here)
    exact hn.finest (scale + 1) (by omega) (fits (Nat.le_succ _) next)
  obtain ⟨n, whole⟩ := h.onTick
  obtain ⟨more, hm⟩ := Nat.exists_eq_add_of_le digits
  have coefficient : finest.coefficient = 2 * (n * 5 * 10 ^ more) := by
    have value : limit * 10 ^ finest.scale = ((2 * (n * 5 * 10 ^ more) : ℤ) : ℚ) := by
      rw [hm, pow_add, pow_succ, ← mul_assoc, ← mul_assoc, whole]
      push_cast
      ring
    rw [hn.coefficient, value, nearestEven_intCast]
  rw [coefficient]
  exact Int.mul_emod_right 2 _

/-- The distance to the limit is rounded by half a unit in the last place of the limit at most. -/
theorem abs_add_rest_sub_le (hn : IsNearest limit finest) (value : finest.toRat = limit)
    (ha : Upto limit 1 a) (hr : nearest? (limit - a.toRat) = some rest) :
    |(a.toRat + rest.toRat) * 10 ^ finest.scale - finest.coefficient| ≤ 1 / 2 := by
  obtain ⟨nonneg, le⟩ := upto_one.1 ha
  have unit : (0 : ℚ) < 10 ^ finest.scale := by positivity
  -- the distance has no less digits than the limit
  have finer : finest.scale ≤ rest.scale :=
    (isNearest_of_nearest? hr).finest finest.scale finest.scale_le
      ((fits_zero _).between hn.fits (by linarith) (by linarith))
  have digits : rest.lastPlace ≤ 1 / 10 ^ finest.scale :=
    one_div_le_one_div_of_le unit (pow_le_pow_right₀ (by norm_num) finer)
  have error := (abs_toRat_sub_le hr).trans (div_le_div_of_nonneg_right digits (by norm_num))
  have gap : (a.toRat + rest.toRat) * 10 ^ finest.scale - finest.coefficient =
      (rest.toRat - (limit - a.toRat)) * 10 ^ finest.scale := by
    rw [← toRat_mul_pow, value]
    ring
  rw [gap, abs_mul, abs_of_pos unit]
  calc |rest.toRat - (limit - a.toRat)| * 10 ^ finest.scale
      ≤ 1 / 10 ^ finest.scale / 2 * 10 ^ finest.scale := by gcongr
    _ = 1 / 2 := by field_simp

/-- Moved by the rounded distance to the limit, an amount is rounded to it at its finest scale. -/
theorem nearestEven_add_rest (h : Headroom factor scale limit) (hf : 10 ≤ factor)
    (hn : IsNearest limit finest) (value : finest.toRat = limit) (ha : Upto limit 1 a)
    (hr : nearest? (limit - a.toRat) = some rest) :
    nearestEven ((a.toRat + rest.toRat) * 10 ^ finest.scale) = finest.coefficient := by
  have near := abs_add_rest_sub_le hn value ha hr
  rcases finest.scale_le.lt_or_eq with coarse | full
  · exact nearestEven_eq_of_even (h.even hf hn coarse) near
  · -- with all digits both are whole numbers of units
    obtain ⟨n, whole⟩ : OnTick 28 (a.toRat + rest.toRat) :=
      ((onTick_toRat a).finer a.scale_le).add ((onTick_toRat rest).finer rest.scale_le)
    rw [full, whole] at near ⊢
    have close : |n - finest.coefficient| < 1 := by
      have : |((n - finest.coefficient : ℤ) : ℚ)| < 1 := by push_cast; linarith
      exact_mod_cast this
    rw [nearestEven_intCast]
    exact sub_eq_zero.1 (Int.abs_lt_one_iff.1 close)

/-- Moved by the rounded distance to the limit, an amount does not come out beyond it. -/
theorem exists_add_rest (h : Headroom factor scale limit) (hf : 10 ≤ factor) (ha : Upto limit 1 a)
    (hr : nearest? (limit - a.toRat) = some rest) :
    ∃ c, nearest? (a.toRat + rest.toRat) = some c ∧ c.toRat ≤ limit := by
  obtain ⟨most, hm⟩ := h.exists_limit (by omega)
  obtain ⟨finest, hfin, value⟩ := nearest?_toRat most
  rw [hm] at hfin value
  have limit_nearest := isNearest_of_nearest? hfin
  have coefficient := h.nearestEven_add_rest hf limit_nearest value ha hr
  have fits : Fits (a.toRat + rest.toRat) finest.scale := by
    unfold Fits
    rw [coefficient, natAbs_coefficient]
    exact finest.magnitude_lt
  obtain ⟨c, hc⟩ := exists_nearest? finest.scale_le fits
  refine ⟨c, hc, ?_⟩
  rcases le_total (a.toRat + rest.toRat) limit with below | above
  · rw [← hm] at below ⊢
    exact toRat_le_of_nearest? hc below
  · -- beyond the limit there is no room for more digits than it has
    have nearest := isNearest_of_nearest? hc
    have same : c.scale = finest.scale := le_antisymm
      (limit_nearest.finest _ c.scale_le ((fits_zero _).between nearest.fits h.pos.le above))
      (nearest.finest _ finest.scale_le fits)
    rw [toRat_eq, nearest.coefficient, same, coefficient, ← toRat_eq, value]

/-- Moved towards an amount within the limit by a fraction of the distance, with every result
rounded, an amount stays between zero and the limit. -/
theorem exists_approach (h : Headroom factor scale limit) (hf : 10 ≤ factor) {fraction : Decimal}
    (hk : 0 ≤ fraction.toRat ∧ fraction.toRat ≤ 1) (ha : Upto limit 1 a) (hb : Upto limit 1 b) :
    ∃ distance part c, b.sub a = .ok distance ∧ fraction.mul distance = .ok part ∧
      a.add part = .ok c ∧ Upto limit 1 c := by
  obtain ⟨most, hm⟩ := h.exists_limit (by omega)
  obtain ⟨rest, hr, rest_nonneg, -⟩ := h.exists_upto (n := 1) (q := limit - a.toRat) (by omega)
    (sub_nonneg.2 (upto_one.1 ha).2) (by rw [Nat.cast_one, one_mul]; linarith [ha.1])
  obtain ⟨c_most, hc_most, most_le⟩ := h.exists_add_rest hf ha hr
  rw [upto_one] at ha hb
  -- the distance and its part lie between the way to zero and the way to the limit
  have back : (-a).toRat ≤ b.toRat - a.toRat := by
    rw [toRat_neg]
    linarith
  obtain ⟨distance, hd⟩ := exists_nearest?_of_between (b := most) back (by linarith)
  have distance_ge := le_toRat_of_nearest? hd back
  have distance_le := toRat_mono_of_nearest? hd hr (by linarith)
  rw [toRat_neg] at distance_ge
  have part_ge : (-a).toRat ≤ fraction.toRat * distance.toRat := by
    have := mul_le_mul_of_nonneg_left distance_ge hk.1
    have := mul_le_of_le_one_left ha.1 hk.2
    rw [toRat_neg]
    linarith
  have part_le : fraction.toRat * distance.toRat ≤ rest.toRat := by
    have := mul_le_mul_of_nonneg_left distance_le hk.1
    have := mul_le_of_le_one_left rest_nonneg hk.2
    linarith
  obtain ⟨part, hp⟩ := exists_nearest?_of_between part_ge part_le
  have ge := le_toRat_of_nearest? hp part_ge
  have le := toRat_le_of_nearest? hp part_le
  rw [toRat_neg] at ge
  obtain ⟨c, hc⟩ := exists_nearest? c_most.scale_le
    ((fits_zero _).between (isNearest_of_nearest? hc_most).fits
      (by linarith : 0 ≤ a.toRat + part.toRat) (by linarith))
  have c_le := toRat_mono_of_nearest? hc hc_most (by linarith)
  exact ⟨distance, part, c, sub_eq_ok_iff.2 hd, mul_eq_ok_iff.2 hp, add_eq_ok_iff.2 hc,
    upto_one.2 ⟨nonneg_of_nearest? hc (by linarith), c_le.trans most_le⟩⟩

end Headroom

end Decimal
end Backtest
