/-
Numbers with a point. The digits are taken up as one significand, which is then divided by a power
of ten. With at most fifteen digits and 22 places both are exact floating-point numbers, so that the
number is the one nearest to what is written, and its text is read as what is written
(`exists_double`).
-/
import Backtest.Json.Number
import Backtest.Proofs.Binary64.Text
import Backtest.Proofs.Json.Scan

namespace Backtest

-- The power of naturals and integers is the one of the core library in every context.
attribute [local instance (high)] instPowNat

namespace NumberParts

open Decimal (ReadsAs)

/-- Powers of ten up to the 22nd are not rounded. -/
theorem magnitude_powerOfTen : ∀ k < 23, (powerOfTen k).magnitude = 10 ^ k := by
  decide +kernel

theorem scaled?_zero : ∀ (negative : Bool), ∀ k < 23,
    scaled? negative 0 (-((k : ℕ) : ℤ)) = some (Binary64.zero negative) := by
  decide +kernel

/-- Quotients of significands and these powers are of ordinary size. -/
theorem low_le_quotient {c k : ℕ} (pos : 0 < c) (hk : k < 23) :
    (2 : ℚ) ^ (-1022 : ℤ) ≤ c / 10 ^ k := by
  rw [le_div_iff₀ (by positivity)]
  calc (2 : ℚ) ^ (-1022 : ℤ) * 10 ^ k ≤ 2 ^ (-1022 : ℤ) * 10 ^ 22 :=
        mul_le_mul_of_nonneg_left (pow_le_pow_right₀ (by norm_num) (by omega))
          (zpow_pos (by norm_num) _).le
    _ ≤ 2 ^ (-80 : ℤ) * 10 ^ 22 :=
        mul_le_mul_of_nonneg_right (zpow_le_zpow_right₀ (by norm_num) (by norm_num)) (by norm_num)
    _ ≤ 1 := by norm_num
    _ ≤ c := Nat.one_le_cast.2 pos

theorem quotient_lt_high {c : ℕ} (small : c < Binary64.bound) (k : ℕ) :
    (c : ℚ) / 10 ^ k < 2 ^ (1023 : ℤ) := by
  have cast : (c : ℚ) < (Binary64.bound : ℕ) := Nat.cast_lt.2 small
  calc (c : ℚ) / 10 ^ k ≤ c := div_le_self (Nat.cast_nonneg _) (one_le_pow₀ (by norm_num))
    _ < (Binary64.bound : ℕ) := cast
    _ = 2 ^ (53 : ℤ) := by norm_num [Binary64.bound]
    _ ≤ 2 ^ (1023 : ℤ) := zpow_le_zpow_right₀ (by norm_num) (by norm_num)

/-- A number divided by a power of ten is rounded once. -/
theorem exists_scaled? (negative : Bool) {c k : ℕ} (pos : 0 < c) (small : c < Binary64.bound)
    (hk : k < 23) : ∃ x, scaled? negative c (-(k : ℤ)) = some x ∧ x.negative = negative ∧
      Binary64.leastFull ≤ x.significand ∧ x.covers ((c : ℚ) * (10 : ℚ) ^ (-(k : ℤ))) = true := by
  obtain ⟨x, hx, sign, full, value⟩ := Binary64.exists_nearest?_natCast negative pos small
  have power := magnitude_powerOfTen k hk
  unfold scaled? Binary64.ofNat?
  rw [hx]
  simp only [Option.bind_eq_bind, Option.bind_some]
  rcases Nat.eq_zero_or_pos k with rfl | some_place
  · -- the number is multiplied by one
    rw [if_neg (by omega), if_neg pos.ne', if_neg (by omega)]
    refine ⟨x, ?_, sign, full, ?_⟩
    · show Binary64.nearest? x.negative (x.magnitude * (powerOfTen 0).magnitude) = some x
      rw [power, sign, value, pow_zero, mul_one, hx]
    · have same := x.covers_magnitude
      rw [value] at same
      rwa [Nat.cast_zero, neg_zero, zpow_zero, mul_one]
  · have none_first : ((-(k : ℤ)).natAbs - 1) / 308 = 0 := by omega
    have all_at_once : (-(k : ℤ)).natAbs - 308 * 0 = k := by omega
    have quotient : (c : ℚ) * (10 : ℚ) ^ (-(k : ℤ)) = c / 10 ^ k := by
      rw [zpow_neg, zpow_natCast, div_eq_mul_inv]
    obtain ⟨y, hy, sign', full', covered, -⟩ :=
      Binary64.exists_nearest? negative (low_le_quotient pos hk) (quotient_lt_high small k)
    refine ⟨y, ?_, sign', full', quotient ▸ covered⟩
    rw [if_pos (by omega), none_first]
    simp only [divideDown, Option.bind_some]
    unfold Binary64.div?
    rw [all_at_once, power, sign, value, hy]

/-- The digits of a number with a point are taken up at once if there are few. -/
theorem double_eq {negative : Bool} {ds es : List ℕ} {x : Binary64}
    (few : digitsValue (ds ++ es) < wordBound)
    (h : scaled? negative (digitsValue (ds ++ es)) (-(es.length : ℤ)) = some x) :
    double ⟨negative, ds, es, none⟩ = .ok (.double x) := by
  have all_taken : es.foldl (fun n d => 10 * n + d) (digitsValue ds) = digitsValue (ds ++ es) := by
    rw [digitsValue, digitsValue, List.foldl_append]
  have front : digitsValue ds ≤ digitsValue (ds ++ es) := by
    rw [← all_taken]
    exact le_foldl_digits es (digitsValue ds)
  have whole : absorb 0 ds = (digitsValue ds, []) :=
    absorb_of_lt ds 0 (lt_of_le_of_lt front few)
  have rest : absorb (digitsValue ds) es = (digitsValue (ds ++ es), []) := by
    rw [absorb_of_lt es _ (all_taken ▸ few), all_taken]
  unfold double
  dsimp only
  rw [whole]
  dsimp only
  rw [rest]
  simp [h]

/-- The text of zero. -/
theorem readsAs_chars_zero (negative : Bool) :
    ReadsAs negative 0 (Decimal.read (Binary64.zero negative).chars) := by
  refine ⟨⟨false, 0, 1, by decide, by decide⟩, ?_, ?_⟩ <;> cases negative <;> decide +kernel

/-- A number of at most fifteen digits, of which 22 at most stand after the point, is read from its
text as it is written. -/
theorem exists_double (negative : Bool) {ds es : List ℕ} (few : digitsValue (ds ++ es) < 10 ^ 15)
    (places : es.length < 23) : ∃ x, double ⟨negative, ds, es, none⟩ = .ok (.double x) ∧
      ReadsAs negative ((digitsValue (ds ++ es) : ℚ) * (10 : ℚ) ^ (-(es.length : ℤ)))
        (Decimal.read x.chars) := by
  have word : (10 : ℕ) ^ 15 ≤ wordBound := by decide
  have exact_digits : (10 : ℕ) ^ 15 ≤ Binary64.bound := by decide
  rcases Nat.eq_zero_or_pos (digitsValue (ds ++ es)) with zero | pos
  · have scaled := scaled?_zero negative es.length places
    rw [← zero] at scaled
    refine ⟨Binary64.zero negative, double_eq (lt_of_lt_of_le few word) scaled, ?_⟩
    rw [zero, Nat.cast_zero, zero_mul]
    exact readsAs_chars_zero negative
  · obtain ⟨x, hx, sign, full, covered⟩ :=
      exists_scaled? negative pos (lt_of_lt_of_le few exact_digits) places
    have small : (digitsValue (ds ++ es) : ℚ) * (10 : ℚ) ^ (-(es.length : ℤ)) < 10 ^ 15 := by
      refine lt_of_le_of_lt (mul_le_of_le_one_right (Nat.cast_nonneg _) ?_)
        (by exact_mod_cast few)
      exact zpow_le_one_of_nonpos₀ (by norm_num) (by omega)
    refine ⟨x, double_eq (lt_of_lt_of_le few word) hx, ?_⟩
    rw [← sign]
    exact Binary64.readsAs_chars_of_covers full pos few (by omega) small covered

end NumberParts
end Backtest
