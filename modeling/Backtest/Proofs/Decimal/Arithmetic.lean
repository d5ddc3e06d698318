/-
What the operations on amounts give: the exact result, rounded once. A result can be compared with
any amount through the exact one, as rounding does not cross amounts.
-/
import Backtest.Proofs.Decimal.Nearest

namespace Backtest.Decimal

theorem rounded_eq_ok_iff {fault : Fault} {q : ℚ} {d : Decimal} :
    rounded fault q = .ok d ↔ nearest? q = some d := by
  unfold rounded
  cases nearest? q <;> simp

/-- Rounding fails exactly where the coefficient does not fit at any scale. -/
theorem rounded_eq_error_iff {fault fault' : Fault} {q : ℚ} :
    rounded fault q = .error fault' ↔ fault' = fault ∧ ∀ scale ≤ 28, ¬ Fits q scale := by
  unfold rounded
  rcases hn : nearest? q with _ | d
  · refine ⟨fun h => ⟨(Except.error.inj h).symm, fun scale hs fits => ?_⟩, fun h => by rw [h.1]⟩
    obtain ⟨d, hd⟩ := exists_nearest? hs fits
    rw [hn] at hd
    cases hd
  · refine ⟨nofun, fun h => ?_⟩
    exact absurd (isNearest_of_nearest? hn).fits (h.2 d.scale d.scale_le)

section Results

variable {a b c : Decimal} {n m : ℕ}

theorem add_eq_ok_iff : a.add b = .ok c ↔ nearest? (a.toRat + b.toRat) = some c :=
  rounded_eq_ok_iff

theorem sub_eq_ok_iff : a.sub b = .ok c ↔ nearest? (a.toRat - b.toRat) = some c :=
  rounded_eq_ok_iff

theorem mul_eq_ok_iff : a.mul b = .ok c ↔ nearest? (a.toRat * b.toRat) = some c :=
  rounded_eq_ok_iff

theorem times_eq_ok_iff : a.times n = .ok c ↔ nearest? (a.toRat * n) = some c :=
  rounded_eq_ok_iff

theorem div_eq_ok_iff :
    a.div b = .ok c ↔ b.magnitude ≠ 0 ∧ nearest? (a.toRat / b.toRat) = some c := by
  unfold Decimal.div
  split
  · next h => simp [h]
  · next h => simp [h, rounded_eq_ok_iff]

theorem part_eq_ok_iff : a.part n = .ok c ↔ n ≠ 0 ∧ nearest? (a.toRat / n) = some c := by
  unfold part
  split
  · next h => simp [h]
  · next h => simp [h, rounded_eq_ok_iff]

end Results

section Signs

variable {q r : ℚ} {a b : Decimal}

theorem toRat_mono_of_nearest? (ha : nearest? q = some a) (hb : nearest? r = some b) (h : q ≤ r) :
    a.toRat ≤ b.toRat :=
  (isNearest_of_nearest? ha).toRat_mono (isNearest_of_nearest? hb) h

theorem nonneg_of_nearest? (h : nearest? q = some a) (hq : 0 ≤ q) : 0 ≤ a.toRat :=
  (isNearest_of_nearest? h).toRat_nonneg hq

theorem le_one_of_nearest? (h : nearest? q = some a) (hq : q ≤ 1) : a.toRat ≤ 1 := by
  rw [← toRat_one] at hq ⊢
  exact toRat_le_of_nearest? h hq

theorem le_hundred_of_nearest? (h : nearest? q = some a) (hq : q ≤ 100) : a.toRat ≤ 100 := by
  rw [← toRat_hundred] at hq ⊢
  exact toRat_le_of_nearest? h hq

theorem nonpos_of_nearest? (h : nearest? q = some a) (hq : q ≤ 0) : a.toRat ≤ 0 :=
  (isNearest_of_nearest? h).toRat_nonpos hq

/-- A whole number is not rounded. -/
theorem toRat_of_nearest?_natCast {n : ℕ} (h : nearest? (n : ℚ) = some a) : a.toRat = n := by
  have whole : (n : ℚ) * 10 ^ a.scale = ((n * 10 ^ a.scale : ℤ) : ℚ) := by push_cast; rfl
  exact (isNearest_of_nearest? h).toRat_eq_of_whole whole

theorem toRat_of_nearest?_zero (h : nearest? 0 = some a) : a.toRat = 0 := by
  rw [← Nat.cast_zero] at h
  rw [toRat_of_nearest?_natCast h, Nat.cast_zero]

end Signs

/-- A hundredfold is not rounded: it has two fraction digits less, or none. -/
theorem toRat_hundred_mul {a c : Decimal} (h : hundred.mul a = .ok c) : c.toRat = 100 * a.toRat := by
  have h := isNearest_of_nearest? (mul_eq_ok_iff.1 h)
  rw [toRat_hundred] at h
  have digits : a.scale ≤ c.scale + 2 := by
    by_contra fewer
    obtain ⟨scale, hs⟩ : ∃ scale, a.scale = scale + 2 := ⟨a.scale - 2, by omega⟩
    have fits : Fits (100 * a.toRat) scale := by
      have coefficient : 100 * a.toRat * 10 ^ scale = a.toRat * 10 ^ a.scale := by
        rw [hs]
        ring
      have here := fits_toRat a
      unfold Fits at here ⊢
      rw [coefficient]
      exact here
    have := a.scale_le
    have := h.finest scale (by omega) fits
    omega
  obtain ⟨n, whole⟩ := exists_toRat_mul_pow_eq digits
  refine h.toRat_eq_of_whole (n := n) ?_
  rw [← whole]
  ring

end Backtest.Decimal
