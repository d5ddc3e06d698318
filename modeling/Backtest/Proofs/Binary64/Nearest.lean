/-
Rounding to floating-point numbers. Every ratio of ordinary size has a nearest number, which is one
with a full significand, and lies in the interval that is read back as that number
(`exists_nearest?`). The interval is convex and shorter than the number by a factor of `2 ^ 52`.
Whole numbers below `2 ^ 53` are not rounded.
-/
import Backtest.Binary64.Shortest
import Backtest.Proofs.Decimal.Nearest
import Mathlib.Algebra.Order.Field.Power

namespace Backtest

-- The power of naturals is the one of the core library in every context.
attribute [local instance (high)] instPowNat

/-! ## Logarithms -/

section Logarithms

variable {b q : ℚ} {i j guess : ℤ}

theorem div_between_powers {n d : ℚ} (hb : 0 < b) (hn : b ^ i ≤ n) (hn' : n < b ^ (i + 1))
    (hd : b ^ j ≤ d) (hd' : d < b ^ (j + 1)) :
    b ^ (i - j - 1) ≤ n / d ∧ n / d < b ^ (i - j + 1) := by
  have pos : 0 < d := lt_of_lt_of_le (zpow_pos hb j) hd
  constructor
  · rw [le_div_iff₀ pos]
    calc b ^ (i - j - 1) * d ≤ b ^ (i - j - 1) * b ^ (j + 1) :=
          mul_le_mul_of_nonneg_left hd'.le (zpow_pos hb _).le
      _ = b ^ i := by rw [← zpow_add₀ hb.ne']; congr 1; omega
      _ ≤ n := hn
  · rw [div_lt_iff₀ pos]
    calc n < b ^ (i + 1) := hn'
      _ = b ^ (i - j + 1) * b ^ j := by rw [← zpow_add₀ hb.ne']; congr 1; omega
      _ ≤ b ^ (i - j + 1) * d := mul_le_mul_of_nonneg_left hd (zpow_pos hb _).le

/-- A guess that is too large by one at most is put right. -/
theorem between_powers_of_guess (low : b ^ (guess - 1) ≤ q) (high : q < b ^ (guess + 1)) :
    b ^ (if b ^ guess ≤ q then guess else guess - 1) ≤ q ∧
      q < b ^ ((if b ^ guess ≤ q then guess else guess - 1) + 1) := by
  split
  · next reached => exact ⟨reached, high⟩
  · next missed =>
    rw [Int.sub_add_cancel]
    exact ⟨low, not_le.1 missed⟩

theorem num_toNat_div_den (pos : 0 < q) : ((q.num.toNat : ℕ) : ℚ) / (q.den : ℚ) = q := by
  have num : ((q.num.toNat : ℤ) : ℚ) = q.num := by
    rw [Int.toNat_of_nonneg (Rat.num_nonneg.2 pos.le)]
  rw [← Int.cast_natCast, num, Rat.num_div_den]

theorem num_toNat_ne_zero (pos : 0 < q) : q.num.toNat ≠ 0 := by
  have := Rat.num_pos.2 pos
  omega

theorem log2_between {n : ℕ} (h : n ≠ 0) :
    (2 : ℚ) ^ (n.log2 : ℤ) ≤ n ∧ (n : ℚ) < 2 ^ ((n.log2 : ℤ) + 1) := by
  have low := Nat.log2_self_le h
  have high : n < 2 ^ (n.log2 + 1) := Nat.lt_log2_self
  constructor
  · rw [zpow_natCast]
    exact_mod_cast low
  · rw [← Nat.cast_succ, zpow_natCast]
    exact_mod_cast high

theorem floorLog2_spec (pos : 0 < q) :
    (2 : ℚ) ^ floorLog2 q ≤ q ∧ q < 2 ^ (floorLog2 q + 1) := by
  obtain ⟨hn, hn'⟩ := log2_between (num_toNat_ne_zero pos)
  obtain ⟨hd, hd'⟩ := log2_between q.den_ne_zero
  obtain ⟨low, high⟩ := div_between_powers (by norm_num) hn hn' hd hd'
  rw [num_toNat_div_den pos] at low high
  exact between_powers_of_guess low high

/-- The digits of a number tell its size. -/
theorem digitCount_between : ∀ n : ℕ, n < 10 ^ digitCount n ∧
    (n ≠ 0 → 10 ^ (digitCount n - 1) ≤ n) ∧ 1 ≤ digitCount n := by
  intro n
  induction n using Nat.strongRecOn with
  | ind n ih =>
    unfold digitCount at ih ⊢
    rcases Nat.lt_or_ge n 10 with small | large
    · rw [Nat.toDigits_of_lt_base small]
      exact ⟨small, Nat.pos_of_ne_zero, le_refl 1⟩
    · obtain ⟨high, low, some_digit⟩ := ih (n / 10) (by omega)
      rw [Nat.toDigits_of_base_le (by decide) large, List.length_append, List.length_singleton,
        Nat.add_sub_cancel]
      have split_first : 10 ^ (Nat.toDigits 10 (n / 10)).length =
          10 * 10 ^ ((Nat.toDigits 10 (n / 10)).length - 1) := by
        rw [← Nat.pow_succ', Nat.succ_eq_add_one, Nat.sub_add_cancel some_digit]
      have front := low (by omega)
      refine ⟨?_, fun _ => by omega, by omega⟩
      rw [Nat.pow_succ]
      omega

theorem digitCount_between_powers {n : ℕ} (h : n ≠ 0) :
    (10 : ℚ) ^ ((digitCount n : ℤ) - 1) ≤ n ∧ (n : ℚ) < 10 ^ ((digitCount n : ℤ) - 1 + 1) := by
  obtain ⟨high, low, some_digit⟩ := digitCount_between n
  constructor
  · rw [← Nat.cast_one, ← Nat.cast_sub some_digit, zpow_natCast]
    exact_mod_cast low h
  · rw [Int.sub_add_cancel, zpow_natCast]
    exact_mod_cast high

theorem floorLog10_spec (pos : 0 < q) :
    (10 : ℚ) ^ floorLog10 q ≤ q ∧ q < 10 ^ (floorLog10 q + 1) := by
  obtain ⟨hn, hn'⟩ := digitCount_between_powers (num_toNat_ne_zero pos)
  obtain ⟨hd, hd'⟩ := digitCount_between_powers q.den_ne_zero
  obtain ⟨low, high⟩ := div_between_powers (by norm_num) hn hn' hd hd'
  rw [num_toNat_div_den pos, sub_sub_sub_cancel_right] at low high
  exact between_powers_of_guess low high

end Logarithms

/-! ## Ties -/

/-- A ratio half-way between two whole numbers goes to the even one. -/
theorem nearestEven_even_of_tie {q : ℚ} (tie : |q - nearestEven q| = 1 / 2) :
    nearestEven q % 2 = 0 := by
  have below : ((q.floor : ℤ) : ℚ) ≤ q := Int.floor_le q
  have above : q < ((q.floor : ℤ) : ℚ) + 1 := Int.lt_floor_add_one q
  unfold nearestEven at tie ⊢
  simp only at tie ⊢
  split_ifs at tie ⊢ with near far even
  · rw [abs_of_nonneg (by linarith)] at tie
    linarith
  · push_cast at tie
    rw [abs_of_nonpos (by linarith)] at tie
    linarith
  · exact even
  · omega

namespace Binary64

variable {x : Binary64} {q r t : ℚ}

/-! ## The interval of a number -/

theorem magnitude_eq (x : Binary64) : x.magnitude = (x.significand : ℚ) * (2 : ℚ) ^ x.exponent := rfl

theorem gap_pos (x : Binary64) : (0 : ℚ) < 2 ^ x.exponent :=
  zpow_pos (by norm_num) _

/-- The gap to the next number is small if the significand is full. -/
theorem gap_mul_le_magnitude (full : leastFull ≤ x.significand) :
    (2 : ℚ) ^ x.exponent * 2 ^ 52 ≤ x.magnitude := by
  have significand : (2 : ℚ) ^ 52 ≤ x.significand := by
    have cast : ((leastFull : ℕ) : ℚ) ≤ x.significand := by exact_mod_cast full
    norm_num [leastFull] at cast ⊢
    exact cast
  rw [magnitude_eq, mul_comm]
  exact mul_le_mul_of_nonneg_right significand x.gap_pos.le

/-- Ratios half a gap away or nearer are covered, the ends only by an even significand. Below the
least full significand the gap is half as long. -/
theorem covers_of_near (near : |q - x.magnitude| ≤ 2 ^ x.exponent / 2)
    (tie : |q - x.magnitude| = 2 ^ x.exponent / 2 → x.significand % 2 = 0)
    (below : x.significand = leastFull → x.magnitude - 2 ^ x.exponent / 4 ≤ q) :
    x.covers q = true := by
  obtain ⟨low, high⟩ := abs_le.1 near
  have gap := x.gap_pos
  unfold covers
  dsimp only
  by_cases even : x.significand % 2 = 0
  · simp only [even, if_true, Bool.and_eq_true, decide_eq_true_eq]
    constructor
    · split
      · next least =>
        have := below least.1
        linarith
      · linarith
    · linarith
  · have odd : ¬ x.significand = leastFull := by
      intro least
      rw [least] at even
      exact even rfl
    have inside : |q - x.magnitude| < 2 ^ x.exponent / 2 :=
      lt_of_le_of_ne near fun e => even (tie e)
    obtain ⟨low, high⟩ := abs_lt.1 inside
    simp only [even, odd, false_and, if_false, Bool.and_eq_true, decide_eq_true_eq]
    constructor <;> linarith

/-- The same, counted in units of the gap. -/
theorem covers_of_units (units : t * 2 ^ x.exponent = q) (near : |t - x.significand| ≤ 1 / 2)
    (tie : |t - x.significand| = 1 / 2 → x.significand % 2 = 0)
    (below : x.significand = leastFull → (x.significand : ℚ) - 1 / 4 ≤ t) : x.covers q = true := by
  subst units
  have gap := x.gap_pos
  have off : |t * 2 ^ x.exponent - x.magnitude| = |t - x.significand| * 2 ^ x.exponent := by
    rw [magnitude_eq, ← sub_mul, abs_mul, abs_of_pos gap]
  refine covers_of_near ?_ (fun half => tie ?_) fun least => ?_
  · have := mul_le_mul_of_nonneg_right near gap.le
    linarith
  · refine mul_right_cancel₀ gap.ne' ?_
    rw [← off, half]
    ring
  · have := mul_le_mul_of_nonneg_right (below least) gap.le
    rw [magnitude_eq]
    linarith

theorem abs_sub_le_of_covers (h : x.covers q = true) :
    |q - x.magnitude| ≤ 2 ^ x.exponent / 2 := by
  have gap := x.gap_pos
  have weak : x.magnitude - 2 ^ x.exponent / 2 ≤ q ∧ q ≤ x.magnitude + 2 ^ x.exponent / 2 := by
    unfold covers at h
    dsimp only at h
    split at h <;> simp only [Bool.and_eq_true, decide_eq_true_eq] at h <;>
      obtain ⟨low, high⟩ := h <;> split at low <;> constructor <;> linarith
  rw [abs_le]
  constructor <;> linarith

theorem covers_magnitude (x : Binary64) : x.covers x.magnitude = true := by
  have gap := x.gap_pos
  refine covers_of_near ?_ (fun tie => ?_) fun _ => by linarith
  · rw [sub_self, abs_zero]
    linarith
  · rw [sub_self, abs_zero] at tie
    linarith

/-- What lies between covered ratios is covered. -/
theorem covers_between (hq : x.covers q = true) (hr : x.covers r = true) (low : q ≤ t)
    (high : t ≤ r) : x.covers t = true := by
  unfold covers at hq hr ⊢
  dsimp only at hq hr ⊢
  split at hq <;> rename_i parity <;> simp only [parity, if_true, if_false, Bool.and_eq_true,
    decide_eq_true_eq] at hq hr ⊢
  · exact ⟨le_trans hq.1 low, le_trans high hr.2⟩
  · exact ⟨lt_of_lt_of_le hq.1 low, lt_of_le_of_lt high hr.2⟩

/-! ## Rounding -/

/-- Counted in units that make its significand full, a ratio is rounded to a full significand or to
the first number beyond. -/
theorem nearestEven_position_between (pos : 0 < q) :
    (leastFull : ℤ) ≤ nearestEven (q / 2 ^ (floorLog2 q - 52)) ∧
      nearestEven (q / 2 ^ (floorLog2 q - 52)) ≤ (bound : ℤ) ∧
      (leastFull : ℚ) ≤ q / 2 ^ (floorLog2 q - 52) := by
  obtain ⟨least, greatest⟩ := floorLog2_spec pos
  have unit : (0 : ℚ) < 2 ^ (floorLog2 q - 52) := zpow_pos (by norm_num) _
  have low : ((leastFull : ℤ) : ℚ) ≤ q / 2 ^ (floorLog2 q - 52) := by
    rw [le_div_iff₀ unit]
    refine le_trans (le_of_eq ?_) least
    have full : ((leastFull : ℤ) : ℚ) = 2 ^ (52 : ℤ) := by norm_num [leastFull]
    rw [full, ← zpow_add₀ (by norm_num), add_sub_cancel]
  have high : q / 2 ^ (floorLog2 q - 52) ≤ ((bound : ℤ) : ℚ) := by
    rw [div_le_iff₀ unit]
    refine le_trans greatest.le (le_of_eq ?_)
    have beyond : ((bound : ℤ) : ℚ) = 2 ^ (53 : ℤ) := by norm_num [bound]
    rw [beyond, ← zpow_add₀ (by norm_num)]
    congr 1
    omega
  refine ⟨?_, ?_, low⟩
  · rw [← nearestEven_intCast (leastFull : ℤ)]
    exact nearestEven_mono low
  · rw [← nearestEven_intCast (bound : ℤ)]
    exact nearestEven_mono high

section Parts

variable {negative : Bool} {n : ℕ} (pos : 0 < q) (least : -1022 ≤ floorLog2 q)
  (greatest : floorLog2 q ≤ 1022)

include pos least

theorem nearest?_eq_some (hn : nearestEven (q / 2 ^ (floorLog2 q - 52)) = n) (full : leastFull ≤ n)
    (small : n < bound) : nearest? negative q =
      some ⟨negative, n, floorLog2 q - 52, small, by omega, by omega, .inl full⟩ := by
  have ordinary : max (floorLog2 q - 52) (-1074) = floorLog2 q - 52 := by omega
  unfold nearest?
  rw [if_neg (not_le.2 pos)]
  simp only [ordinary, hn, Int.toNat_natCast, if_neg small.ne]
  exact dif_pos ⟨small, by omega, by omega, .inl full⟩

/-- A significand that is rounded to the bound is written with the next exponent. -/
theorem nearest?_eq_some_of_carry (hn : nearestEven (q / 2 ^ (floorLog2 q - 52)) = (bound : ℕ)) :
    nearest? negative q =
      some ⟨negative, leastFull, floorLog2 q - 52 + 1, by decide, by omega, by omega, .inl le_rfl⟩ := by
  have ordinary : max (floorLog2 q - 52) (-1074) = floorLog2 q - 52 := by omega
  unfold nearest?
  rw [if_neg (not_le.2 pos)]
  simp only [ordinary, hn, Int.toNat_natCast, if_true]
  exact dif_pos ⟨by decide, by omega, by omega, .inl le_rfl⟩

end Parts

/-- A ratio of ordinary size is rounded to a number with a full significand, which covers it. -/
theorem exists_nearest? (negative : Bool) (low : (2 : ℚ) ^ (-1022 : ℤ) ≤ q)
    (high : q < 2 ^ (1023 : ℤ)) : ∃ x, nearest? negative q = some x ∧ x.negative = negative ∧
      leastFull ≤ x.significand ∧ x.covers q = true ∧
      x.magnitude = nearestEven (q / 2 ^ (floorLog2 q - 52)) * 2 ^ (floorLog2 q - 52) := by
  have pos : 0 < q := lt_of_lt_of_le (zpow_pos (by norm_num) _) low
  obtain ⟨least, greatest⟩ := floorLog2_spec pos
  have lead_low : -1022 < floorLog2 q + 1 :=
    (zpow_lt_zpow_iff_right₀ (by norm_num)).1 (lt_of_le_of_lt low greatest)
  have lead_high : floorLog2 q < 1023 :=
    (zpow_lt_zpow_iff_right₀ (by norm_num)).1 (lt_of_le_of_lt least high)
  have unit : (0 : ℚ) < 2 ^ (floorLog2 q - 52) := zpow_pos (by norm_num) _
  have next : (2 : ℚ) ^ (floorLog2 q - 52 + 1) = 2 * 2 ^ (floorLog2 q - 52) := by
    rw [zpow_add_one₀ (by norm_num), mul_comm]
  obtain ⟨from_full, to_bound, position⟩ := nearestEven_position_between pos
  have rounding := abs_nearestEven_sub_le (q / 2 ^ (floorLog2 q - 52))
  have even := @nearestEven_even_of_tie (q / 2 ^ (floorLog2 q - 52))
  obtain ⟨n, hn⟩ := Int.eq_ofNat_of_zero_le (le_trans (Int.natCast_nonneg _) from_full)
  rw [hn] at from_full to_bound rounding even ⊢
  rw [abs_sub_comm] at rounding
  rw [Int.cast_natCast] at rounding even ⊢
  rcases (Int.ofNat_le.1 to_bound).lt_or_eq with small | rfl
  · have full : leastFull ≤ n := Int.ofNat_le.1 from_full
    refine ⟨_, nearest?_eq_some pos (by omega) (by omega) hn full small, rfl, full, ?_, rfl⟩
    refine covers_of_units (div_mul_cancel₀ q unit.ne') rounding (fun tie => ?_) fun same => ?_
    · exact Int.ofNat.inj (even tie)
    · have same : (n : ℚ) = leastFull := congrArg Nat.cast same
      show (n : ℚ) - 1 / 4 ≤ q / 2 ^ (floorLog2 q - 52)
      linarith
  · have twice : ((bound : ℕ) : ℚ) = 2 * (leastFull : ℕ) := by norm_num [bound, leastFull]
    rw [twice] at rounding ⊢
    refine ⟨_, nearest?_eq_some_of_carry pos (by omega) (by omega) hn, rfl, le_rfl, ?_, ?_⟩
    · -- in units of the next exponent the ratio is off by a quarter at most
      have units : q / 2 ^ (floorLog2 q - 52) / 2 * 2 ^ (floorLog2 q - 52 + 1) = q := by
        rw [next, ← mul_assoc, div_mul_cancel₀ _ (by norm_num), div_mul_cancel₀ _ unit.ne']
      obtain ⟨above, below⟩ := abs_le.1 rounding
      have even : leastFull % 2 = 0 := by decide
      refine covers_of_units units ?_ (fun _ => even) fun _ => ?_
      · show |q / 2 ^ (floorLog2 q - 52) / 2 - (leastFull : ℕ)| ≤ 1 / 2
        rw [abs_le]
        constructor <;> linarith
      · show ((leastFull : ℕ) : ℚ) - 1 / 4 ≤ q / 2 ^ (floorLog2 q - 52) / 2
        linarith
    · show ((leastFull : ℕ) : ℚ) * 2 ^ (floorLog2 q - 52 + 1) = _
      rw [next]
      ring

/-- Whole numbers below `2 ^ 53` are not rounded. -/
theorem exists_nearest?_natCast (negative : Bool) {n : ℕ} (pos : 0 < n) (small : n < bound) :
    ∃ x, nearest? negative n = some x ∧ x.negative = negative ∧ leastFull ≤ x.significand ∧
      x.magnitude = n := by
  have pos' : (0 : ℚ) < n := Nat.cast_pos.2 pos
  have low : (1 : ℚ) ≤ n := Nat.one_le_cast.2 pos
  have high : (n : ℚ) < 2 ^ (53 : ℤ) := by
    have : (n : ℚ) < (bound : ℕ) := Nat.cast_lt.2 small
    norm_num [bound] at this ⊢
    exact this
  obtain ⟨least, greatest⟩ := floorLog2_spec pos'
  have lead : floorLog2 (n : ℚ) < 53 :=
    (zpow_lt_zpow_iff_right₀ (by norm_num)).1 (lt_of_le_of_lt least high)
  obtain ⟨x, hx, sign, full, -, value⟩ := exists_nearest? negative
    (le_trans (zpow_le_one_of_nonpos₀ (by norm_num) (by norm_num)) low)
    (lt_trans high (zpow_lt_zpow_right₀ (by norm_num) (by norm_num)))
  refine ⟨x, hx, sign, full, ?_⟩
  -- the units are one or less, so that it takes a whole number of them
  obtain ⟨k, hk⟩ := Int.eq_ofNat_of_zero_le (show 0 ≤ 52 - floorLog2 (n : ℚ) by omega)
  have unit : floorLog2 (n : ℚ) - 52 = -(k : ℤ) := by omega
  have count : (n : ℚ) / 2 ^ (floorLog2 (n : ℚ) - 52) = ((n * 2 ^ k : ℕ) : ℤ) := by
    rw [unit, zpow_neg, div_inv_eq_mul, zpow_natCast]
    push_cast
    rfl
  rw [value, count, nearestEven_intCast, ← count, div_mul_cancel₀ _ (zpow_pos (by norm_num) _).ne']

end Binary64
end Backtest
