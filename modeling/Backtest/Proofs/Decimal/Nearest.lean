/-
Rounding an exact ratio to an amount. `Decimal.nearest?` takes the finest scale at which the nearest
coefficient fits (`IsNearest`). So an amount is its own rounding (`nearest?_toRat`), and rounding
keeps the order of the ratios (`toRat_mono`), although two ratios may be rounded at two scales: an
amount that could have had no further digit is so large that no amount with more digits reaches it
(`abs_toRat_lt_of_scale_lt`). Whatever lies between two amounts is rounded between them.
-/
import Backtest.Decimal.Arithmetic
import Mathlib.Algebra.Order.Floor.Ring
import Mathlib.Data.Rat.Floor
import Mathlib.Tactic.FieldSimp
import Mathlib.Tactic.Linarith
import Mathlib.Tactic.Positivity

namespace Backtest

/-! ## Whole numbers -/

theorem abs_nearestEven_sub_le (q : ℚ) : |(nearestEven q : ℚ) - q| ≤ 1 / 2 := by
  have below : ((q.floor : ℤ) : ℚ) ≤ q := Int.floor_le q
  have above : q < ((q.floor : ℤ) : ℚ) + 1 := Int.lt_floor_add_one q
  unfold nearestEven
  rw [abs_le]
  simp only
  split_ifs <;> push_cast <;> constructor <;> linarith

@[simp] theorem nearestEven_intCast (n : ℤ) : nearestEven (n : ℚ) = n := by
  unfold nearestEven
  simp [Rat.floor_intCast]

@[simp] theorem nearestEven_zero : nearestEven 0 = 0 :=
  nearestEven_intCast 0

theorem nearestEven_mono {q r : ℚ} (h : q ≤ r) : nearestEven q ≤ nearestEven r := by
  by_contra hlt
  have gap : (nearestEven r : ℚ) + 1 ≤ nearestEven q := by exact_mod_cast Int.not_le.1 hlt
  have hq := abs_le.1 (abs_nearestEven_sub_le q)
  have hr := abs_le.1 (abs_nearestEven_sub_le r)
  -- only a common half-way ratio would leave room for the gap
  have same : q = r := by linarith
  exact hlt (le_of_eq (by rw [same]))

namespace Decimal

/-! ## Amounts as ratios -/

theorem toRat_eq (d : Decimal) : d.toRat = (d.coefficient : ℚ) / 10 ^ d.scale := rfl

theorem toRat_mul_pow (d : Decimal) : d.toRat * 10 ^ d.scale = d.coefficient := by
  rw [toRat_eq, div_mul_cancel₀ _ (by positivity)]

/-- With at least its digits, an amount is a whole number of units of the last place. -/
theorem exists_toRat_mul_pow_eq {d : Decimal} {scale : ℕ} (h : d.scale ≤ scale) :
    ∃ n : ℤ, d.toRat * 10 ^ scale = n := by
  refine ⟨d.coefficient * 10 ^ (scale - d.scale), ?_⟩
  push_cast
  rw [← toRat_mul_pow, mul_assoc, ← pow_add, Nat.add_sub_cancel' h]

theorem abs_toRat (d : Decimal) : |d.toRat| = (d.magnitude : ℚ) / 10 ^ d.scale := by
  rw [toRat_eq, abs_div, abs_of_pos (by positivity : (0 : ℚ) < 10 ^ d.scale), ← natAbs_coefficient,
    Nat.cast_natAbs, Int.cast_abs]

theorem le_iff {a b : Decimal} : a ≤ b ↔ a.toRat ≤ b.toRat := Iff.rfl

theorem lt_iff {a b : Decimal} : a < b ↔ a.toRat < b.toRat := Iff.rfl

theorem not_lt_iff {a b : Decimal} : ¬ a < b ↔ b ≤ a :=
  not_lt (α := ℚ)

theorem isPositive_iff {d : Decimal} : d.IsPositive ↔ 0 < d.toRat := by
  rw [toRat_eq, div_pos_iff_of_pos_right (by positivity), Int.cast_pos]
  rfl

theorem magnitude_eq_zero_iff {d : Decimal} : d.magnitude = 0 ↔ d.toRat = 0 := by
  rw [← abs_eq_zero, abs_toRat, div_eq_zero_iff, Nat.cast_eq_zero]
  simp

@[simp] theorem toRat_zero : zero.toRat = 0 := by decide +kernel

@[simp] theorem toRat_one : one.toRat = 1 := by decide +kernel

@[simp] theorem toRat_hundred : hundred.toRat = 100 := by decide +kernel

@[simp] theorem toRat_neg (d : Decimal) : (-d).toRat = -d.toRat := by
  rw [toRat_eq, toRat_eq, coefficient_neg, Int.cast_neg, neg_div]
  rfl

theorem max_of_le {a b : Decimal} (h : a ≤ b) : max a b = b :=
  if_pos h

theorem max_of_lt {a b : Decimal} (h : b < a) : max a b = a :=
  if_neg (not_le.2 (lt_iff.1 h))

theorem toRat_max (a b : Decimal) : (max a b).toRat = max a.toRat b.toRat := by
  change (Decimal.max a b).toRat = _
  unfold Decimal.max
  split
  · next h => exact (max_eq_right h).symm
  · next h => exact (max_eq_left (le_of_not_ge h)).symm

theorem le_max_left (a b : Decimal) : a ≤ max a b := by
  rw [le_iff, toRat_max]
  exact le_sup_left

theorem le_max_right (a b : Decimal) : b ≤ max a b := by
  rw [le_iff, toRat_max]
  exact le_sup_right

/-! ## The finest scale that fits -/

/-- At this scale the coefficient nearest to `q` is one of an amount. -/
def Fits (q : ℚ) (scale : ℕ) : Prop :=
  (nearestEven (q * 10 ^ scale)).natAbs < bound

theorem Fits.between {q r x : ℚ} {scale : ℕ} (hq : Fits q scale) (hr : Fits r scale)
    (hqx : q ≤ x) (hxr : x ≤ r) : Fits x scale := by
  unfold Fits at *
  have := nearestEven_mono (mul_le_mul_of_nonneg_right hqx (by positivity : (0 : ℚ) ≤ 10 ^ scale))
  have := nearestEven_mono (mul_le_mul_of_nonneg_right hxr (by positivity : (0 : ℚ) ≤ 10 ^ scale))
  omega

theorem fits_zero (scale : ℕ) : Fits 0 scale := by
  unfold Fits
  rw [zero_mul, nearestEven_zero]
  decide

theorem fits_toRat (d : Decimal) : Fits d.toRat d.scale := by
  unfold Fits
  rw [toRat_mul_pow, nearestEven_intCast, natAbs_coefficient]
  exact d.magnitude_lt

/-- The amount has the coefficient nearest to `q`, at the finest scale at which that fits. -/
structure IsNearest (q : ℚ) (d : Decimal) : Prop where
  coefficient : d.coefficient = nearestEven (q * 10 ^ d.scale)
  finest : ∀ scale ≤ 28, Fits q scale → scale ≤ d.scale

theorem atScale?_of_fits {q : ℚ} {scale : ℕ} (hs : scale ≤ 28) (h : Fits q scale) :
    atScale? q scale hs = some (ofCoefficient (nearestEven (q * 10 ^ scale)) scale h hs) :=
  dif_pos h

theorem atScale?_of_not_fits {q : ℚ} {scale : ℕ} (hs : scale ≤ 28) (h : ¬ Fits q scale) :
    atScale? q scale hs = none :=
  dif_neg h

/-- From a scale down, the first one that fits is taken. -/
theorem fromScale?_eq_some {q : ℚ} {d : Decimal} : ∀ {scale : ℕ} {hs : scale ≤ 28},
    fromScale? q scale hs = some d →
    d.coefficient = nearestEven (q * 10 ^ d.scale) ∧ ∀ t ≤ scale, Fits q t → t ≤ d.scale
  | 0, hs, h => by
    by_cases hf : Fits q 0
    · rw [fromScale?, atScale?_of_fits hs hf] at h
      cases h
      exact ⟨coefficient_ofCoefficient .., fun t ht _ => ht⟩
    · rw [fromScale?, atScale?_of_not_fits hs hf] at h
      cases h
  | scale + 1, hs, h => by
    by_cases hf : Fits q (scale + 1)
    · rw [fromScale?, atScale?_of_fits hs hf] at h
      cases h
      exact ⟨coefficient_ofCoefficient .., fun t ht _ => ht⟩
    · rw [fromScale?, atScale?_of_not_fits hs hf] at h
      obtain ⟨hc, finest⟩ := fromScale?_eq_some h
      refine ⟨hc, fun t ht ft => finest t ?_ ft⟩
      have : t ≠ scale + 1 := fun e => hf (e ▸ ft)
      omega

theorem exists_fromScale? {q : ℚ} {t : ℕ} (ft : Fits q t) : ∀ {scale : ℕ} (hs : scale ≤ 28),
    t ≤ scale → ∃ d, fromScale? q scale hs = some d
  | 0, hs, ht => by
    cases Nat.le_zero.1 ht
    exact ⟨_, atScale?_of_fits hs ft⟩
  | scale + 1, hs, ht => by
    by_cases hf : Fits q (scale + 1)
    · exact ⟨_, by rw [fromScale?, atScale?_of_fits hs hf]⟩
    · have : t ≠ scale + 1 := fun e => hf (e ▸ ft)
      rw [fromScale?, atScale?_of_not_fits hs hf]
      exact exists_fromScale? ft (Nat.le_of_succ_le hs) (by omega)

theorem isNearest_of_nearest? {q : ℚ} {d : Decimal} (h : nearest? q = some d) : IsNearest q d :=
  ⟨(fromScale?_eq_some h).1, (fromScale?_eq_some h).2⟩

/-- A ratio that fits at some scale can be rounded. -/
theorem exists_nearest? {q : ℚ} {scale : ℕ} (hs : scale ≤ 28) (h : Fits q scale) :
    ∃ d, nearest? q = some d :=
  exists_fromScale? h (Nat.le_refl 28) hs

/-! ## Order -/

namespace IsNearest

variable {q r : ℚ} {a b : Decimal}

theorem fits (h : IsNearest q a) : Fits q a.scale := by
  unfold Fits
  rw [← h.coefficient, natAbs_coefficient]
  exact a.magnitude_lt

/-- An amount with less than 28 fraction digits is so large that a further digit has no room. -/
theorem bound_le (h : IsNearest q a) (hs : a.scale < 28) : bound ≤ 10 * a.magnitude := by
  have coarse : ¬ Fits q (a.scale + 1) := fun f => by
    have := h.finest (a.scale + 1) hs f
    omega
  have here := abs_le.1 (abs_nearestEven_sub_le (q * 10 ^ a.scale))
  have next := abs_le.1 (abs_nearestEven_sub_le (q * 10 ^ (a.scale + 1)))
  unfold Fits at coarse
  rw [← h.coefficient] at here
  have step : q * 10 ^ (a.scale + 1) = 10 * (q * 10 ^ a.scale) := by ring
  rw [step] at coarse next
  generalize nearestEven (10 * (q * 10 ^ a.scale)) = n at coarse next
  -- the two coefficients differ by at most 5.5 units of the finer scale
  have lower : 10 * a.coefficient - 6 < n := by
    have : (10 * a.coefficient - 6 : ℚ) < n := by linarith
    exact_mod_cast this
  have upper : n < 10 * a.coefficient + 6 := by
    have : (n : ℚ) < 10 * a.coefficient + 6 := by linarith
    exact_mod_cast this
  rw [← natAbs_coefficient]
  unfold bound at coarse ⊢
  omega

/-- An amount with more digits is smaller in magnitude. -/
theorem abs_toRat_lt_of_scale_lt (h : IsNearest q a) (hs : a.scale < b.scale) :
    |b.toRat| < |a.toRat| := by
  have large := h.bound_le (Nat.lt_of_lt_of_le hs b.scale_le)
  have small : (b.magnitude : ℚ) < 10 * a.magnitude := by
    exact_mod_cast Nat.lt_of_lt_of_le b.magnitude_lt large
  have digits : (10 : ℚ) ^ (a.scale + 1) ≤ 10 ^ b.scale := pow_le_pow_right₀ (by norm_num) hs
  rw [abs_toRat, abs_toRat]
  calc (b.magnitude : ℚ) / 10 ^ b.scale
      < 10 * a.magnitude / 10 ^ b.scale := by gcongr
    _ ≤ 10 * a.magnitude / 10 ^ (a.scale + 1) := by gcongr
    _ = a.magnitude / 10 ^ a.scale := by field_simp; ring

theorem toRat_nonneg (h : IsNearest q a) (hq : 0 ≤ q) : 0 ≤ a.toRat := by
  have : nearestEven 0 ≤ nearestEven (q * 10 ^ a.scale) := nearestEven_mono (by positivity)
  rw [nearestEven_zero, ← h.coefficient] at this
  rw [toRat_eq]
  have : (0 : ℚ) ≤ a.coefficient := by exact_mod_cast this
  positivity

theorem toRat_nonpos (h : IsNearest q a) (hq : q ≤ 0) : a.toRat ≤ 0 := by
  have : nearestEven (q * 10 ^ a.scale) ≤ nearestEven 0 :=
    nearestEven_mono (mul_nonpos_of_nonpos_of_nonneg hq (by positivity))
  rw [nearestEven_zero, ← h.coefficient] at this
  rw [toRat_eq]
  exact div_nonpos_of_nonpos_of_nonneg (by exact_mod_cast this) (by positivity)

/-- Rounding keeps the order. -/
theorem toRat_mono (ha : IsNearest q a) (hb : IsNearest r b) (h : q ≤ r) : a.toRat ≤ b.toRat := by
  rcases Nat.lt_trichotomy a.scale b.scale with hs | hs | hs
  · -- `q` is rounded at a coarser scale than `r`, so it lies below zero
    have hq : q < 0 := by
      by_contra hq
      have := ha.finest _ b.scale_le ((fits_zero _).between hb.fits (not_lt.1 hq) h)
      omega
    have larger := ha.abs_toRat_lt_of_scale_lt hs
    rw [abs_of_nonpos (ha.toRat_nonpos hq.le)] at larger
    linarith [neg_abs_le b.toRat]
  · have coefficients := nearestEven_mono
      (mul_le_mul_of_nonneg_right h (by positivity : (0 : ℚ) ≤ 10 ^ a.scale))
    rw [← ha.coefficient, hs, ← hb.coefficient] at coefficients
    rw [toRat_eq, toRat_eq, hs]
    exact div_le_div_of_nonneg_right (by exact_mod_cast coefficients) (by positivity)
  · have hr : 0 < r := by
      by_contra hr
      have := hb.finest _ a.scale_le (ha.fits.between (fits_zero _) h (not_lt.1 hr))
      omega
    have larger := hb.abs_toRat_lt_of_scale_lt hs
    rw [abs_of_nonneg (hb.toRat_nonneg hr.le)] at larger
    linarith [le_abs_self a.toRat]

/-- A whole number of units of the last place is not rounded. -/
theorem toRat_eq_of_whole (h : IsNearest q a) {n : ℤ} (whole : q * 10 ^ a.scale = n) :
    a.toRat = q := by
  have coefficient := h.coefficient
  rw [whole, nearestEven_intCast] at coefficient
  rw [toRat_eq, coefficient, ← whole, mul_div_cancel_right₀ _ (by positivity)]

/-- The value of an amount is rounded to the amount, up to its digits. -/
theorem toRat_eq_of_toRat (h : IsNearest b.toRat a) : a.toRat = b.toRat := by
  have finer := h.finest _ b.scale_le (fits_toRat b)
  obtain ⟨n, whole⟩ := exists_toRat_mul_pow_eq finer
  exact h.toRat_eq_of_whole whole

end IsNearest

/-! ## Amounts that bound a ratio -/

section Bounds

variable {q : ℚ} {a b : Decimal}

theorem nearest?_toRat (b : Decimal) : ∃ a, nearest? b.toRat = some a ∧ a.toRat = b.toRat := by
  obtain ⟨a, ha⟩ := exists_nearest? b.scale_le (fits_toRat b)
  exact ⟨a, ha, (isNearest_of_nearest? ha).toRat_eq_of_toRat⟩

/-- Whatever lies between zero and an amount can be rounded. -/
theorem exists_nearest?_of_le (hq : 0 ≤ q) (h : q ≤ b.toRat) : ∃ a, nearest? q = some a :=
  exists_nearest? b.scale_le ((fits_zero _).between (fits_toRat b) hq h)

theorem toRat_le_of_nearest? (h : nearest? q = some a) (hq : q ≤ b.toRat) : a.toRat ≤ b.toRat := by
  obtain ⟨b', hb, he⟩ := nearest?_toRat b
  rw [← he]
  exact (isNearest_of_nearest? h).toRat_mono (isNearest_of_nearest? hb) hq

theorem le_toRat_of_nearest? (h : nearest? q = some a) (hq : b.toRat ≤ q) : b.toRat ≤ a.toRat := by
  obtain ⟨b', hb, he⟩ := nearest?_toRat b
  rw [← he]
  exact (isNearest_of_nearest? hb).toRat_mono (isNearest_of_nearest? h) hq

end Bounds

end Decimal
end Backtest
