/-
The shortest digits of a floating-point number. The search stops at the first grid with a point
that reads back, and a grid has one among the number's neighbours as soon as any of its points reads
back. The interval of a number is too short for two points of a grid of fifteen digits, so a
decimal of at most fifteen digits that reads back is what the search finds (`shortest_of_covers`).
-/
import Backtest.Proofs.Binary64.Nearest

namespace Backtest

-- The power of naturals is the one of the core library in every context.
attribute [local instance (high)] instPowNat

namespace Binary64

variable {x : Binary64} {unit lead : ℤ}

/-! ## Grids -/

theorem nearestEven_eq_floor_or (q : ℚ) : nearestEven q = q.floor ∨ nearestEven q = q.floor + 1 := by
  unfold nearestEven
  simp only
  split_ifs <;> simp

theorem magnitude_nonneg (x : Binary64) : 0 ≤ x.magnitude := by
  rw [magnitude_eq]
  exact mul_nonneg (Nat.cast_nonneg _) x.gap_pos.le

theorem floor_position_nonneg (x : Binary64) (unit : ℤ) :
    0 ≤ (x.magnitude / (10 : ℚ) ^ unit).floor :=
  Int.floor_nonneg.2 (div_nonneg x.magnitude_nonneg (zpow_pos (by norm_num) unit).le)

theorem onGrid?_covers {n : ℕ} (h : x.onGrid? unit = some n) :
    x.covers ((n : ℚ) * (10 : ℚ) ^ unit) = true := by
  have nonneg := x.floor_position_nonneg unit
  unfold onGrid? at h
  dsimp only at h
  split at h
  · next below above =>
    cases h
    rcases nearestEven_eq_floor_or (x.magnitude / 10 ^ unit) with e | e
    · rw [e]
      exact below
    · rw [e, Int.toNat_add nonneg (by decide)]
      exact above
  · next below _ =>
    cases h
    exact below
  · next _ above =>
    cases h
    exact above
  · cases h

/-- If a point of the grid is covered, then so is one next to the number. -/
theorem exists_onGrid? {m : ℕ} (h : x.covers ((m : ℚ) * (10 : ℚ) ^ unit) = true) :
    ∃ n, x.onGrid? unit = some n := by
  have step : (0 : ℚ) < 10 ^ unit := zpow_pos (by norm_num) unit
  obtain ⟨below, hb⟩ := Int.eq_ofNat_of_zero_le (x.floor_position_nonneg unit)
  have low : (below : ℚ) * 10 ^ unit ≤ x.magnitude := by
    rw [← le_div_iff₀ step, ← Int.cast_natCast, ← hb]
    exact Int.floor_le _
  have high : x.magnitude ≤ ((below + 1 : ℕ) : ℚ) * 10 ^ unit := by
    rw [← div_le_iff₀ step, Nat.cast_succ, ← Int.cast_natCast, ← hb]
    exact (Int.lt_floor_add_one _).le
  -- the number lies between its neighbours, and the covered point is beyond one of them
  have neighbour : x.covers ((below : ℚ) * 10 ^ unit) = true ∨
      x.covers (((below + 1 : ℕ) : ℚ) * 10 ^ unit) = true := by
    rcases Nat.lt_or_ge below m with after | upto
    · right
      refine covers_between x.covers_magnitude h high ?_
      exact mul_le_mul_of_nonneg_right (Nat.cast_le.2 after) step.le
    · left
      refine covers_between h x.covers_magnitude ?_ low
      exact mul_le_mul_of_nonneg_right (Nat.cast_le.2 upto) step.le
  unfold onGrid?
  dsimp only
  rw [hb, Int.toNat_natCast]
  rcases neighbour with hit | hit <;> rw [hit] <;> split <;> simp_all

/-- The search ends at a grid with a covered point, at a given one with such a point at the
latest. -/
theorem searchGrids_of_onGrid? (here : ∃ n, x.onGrid? unit = some n) (low : lead - 16 < unit) :
    ∀ {left : ℕ}, unit ≤ lead - 16 + left → ∃ n found, x.searchGrids lead left = (n, found) ∧
      x.onGrid? found = some n ∧ unit ≤ found ∧ found ≤ lead - 16 + left
  | 0, high => by omega
  | left + 1, high => by
    unfold searchGrids
    dsimp only
    cases first : x.onGrid? (lead - 16 + (left + 1)) with
    | some n => exact ⟨n, _, rfl, first, by omega, by omega⟩
    | none =>
      have later : unit ≠ lead - 16 + (left + 1) := by
        rintro rfl
        obtain ⟨n, hn⟩ := here
        cases first.symm.trans hn
      obtain ⟨n, found, search, hit, after, before⟩ :=
        searchGrids_of_onGrid? here low (show unit ≤ lead - 16 + (left : ℤ) by omega)
      exact ⟨n, found, search, hit, after, by omega⟩

/-! ## Decimals of few digits -/

/-- Points of a grid that are nearer than its unit are one. -/
theorem eq_of_near_on_grid {m n : ℕ} {g : ℚ} (near : |(m : ℚ) * g - n * g| < g) : m = n := by
  have pos : 0 < g := lt_of_le_of_lt (abs_nonneg _) near
  rw [← sub_mul, abs_mul, abs_of_pos pos, mul_lt_iff_lt_one_left pos] at near
  have near' : |((m : ℤ) - n : ℤ)| < 1 := by exact_mod_cast near
  rw [abs_lt] at near'
  omega

/-- A point of a coarser grid is one of a finer grid. -/
theorem exists_on_finer_grid (n : ℕ) {fine : ℤ} (h : fine ≤ unit) :
    ∃ m : ℕ, (n : ℚ) * (10 : ℚ) ^ unit = m * 10 ^ fine := by
  obtain ⟨k, hk⟩ := Int.eq_ofNat_of_zero_le (Int.sub_nonneg.2 h)
  have exponent : unit = k + fine := by omega
  refine ⟨n * 10 ^ k, ?_⟩
  rw [exponent, zpow_add₀ (by norm_num), zpow_natCast, ← mul_assoc]
  push_cast
  rfl

section Decimal

variable {c : ℕ} (full : leastFull ≤ x.significand) (pos : 0 < c) (few : c < 10 ^ 15)
  (h : x.covers ((c : ℚ) * (10 : ℚ) ^ unit) = true)

include full pos few h

/-- The number is about the decimal that it covers. -/
theorem magnitude_between_of_covers :
    10 ^ unit < 2 * x.magnitude ∧ x.magnitude < 2 * (10 ^ 15 * 10 ^ unit) := by
  have step : (0 : ℚ) < 10 ^ unit := zpow_pos (by norm_num) unit
  have gap := gap_mul_le_magnitude full
  have positive := x.gap_pos
  have above : (10 : ℚ) ^ unit ≤ c * 10 ^ unit :=
    le_mul_of_one_le_left step.le (Nat.one_le_cast.2 pos)
  have below : (c : ℚ) * 10 ^ unit < 10 ^ 15 * 10 ^ unit :=
    mul_lt_mul_of_pos_right (by exact_mod_cast few) step
  obtain ⟨low, high⟩ := abs_le.1 (abs_sub_le_of_covers h)
  constructor <;> linarith

/-- So the place of its first digit is close to those of the decimal. -/
theorem lead_between_of_covers :
    unit < floorLog10 x.magnitude + 2 ∧ floorLog10 x.magnitude < unit + 16 := by
  obtain ⟨low, high⟩ := magnitude_between_of_covers full pos few h
  have step : (0 : ℚ) < 10 ^ unit := zpow_pos (by norm_num) unit
  obtain ⟨lead_le, lt_lead⟩ := floorLog10_spec (show 0 < x.magnitude by linarith)
  have ten : (1 : ℚ) < 10 := by norm_num
  constructor
  · refine (zpow_lt_zpow_iff_right₀ ten).1 ?_
    rw [zpow_add_one₀ (by norm_num)] at lt_lead
    rw [zpow_add₀ (by norm_num), zpow_ofNat]
    linarith
  · refine (zpow_lt_zpow_iff_right₀ ten).1 (lt_of_le_of_lt lead_le ?_)
    rw [zpow_add₀ (by norm_num), zpow_ofNat]
    linarith

/-- The numbers are denser than the grid of the decimal, and than that of their first digit. -/
theorem gap_lt_of_covers : (2 : ℚ) ^ x.exponent < 10 ^ min unit (floorLog10 x.magnitude) := by
  obtain ⟨low, high⟩ := magnitude_between_of_covers full pos few h
  have step : (0 : ℚ) < 10 ^ unit := zpow_pos (by norm_num) unit
  have gap := gap_mul_le_magnitude full
  rcases min_choice unit (floorLog10 x.magnitude) with e | e
  · rw [e]
    linarith
  · obtain ⟨-, lt_lead⟩ := floorLog10_spec (show 0 < x.magnitude by linarith)
    rw [zpow_add_one₀ (by norm_num)] at lt_lead
    rw [e]
    linarith

/-- Of the decimals with at most fifteen digits one at most reads back as a number, and the search
finds it. -/
theorem shortest_of_covers :
    ∃ n found, x.shortest = (n, found) ∧ (n : ℚ) * (10 : ℚ) ^ found = c * 10 ^ unit ∧
      unit - 1 ≤ found := by
  obtain ⟨lead_high, lead_low⟩ := lead_between_of_covers full pos few h
  have narrow := gap_lt_of_covers full pos few h
  -- the finer of the two grids is tried and has a covered point
  obtain ⟨fine, hfine⟩ : ∃ fine, fine = min unit (floorLog10 x.magnitude) := ⟨_, rfl⟩
  rw [← hfine] at narrow
  obtain ⟨m, hm⟩ := exists_on_finer_grid c (show fine ≤ unit by omega)
  obtain ⟨n, found, search, hit, after, -⟩ := searchGrids_of_onGrid? (exists_onGrid? (hm ▸ h))
    (show floorLog10 x.magnitude - 16 < fine by omega)
    (show fine ≤ floorLog10 x.magnitude - 16 + (16 : ℕ) by omega)
  refine ⟨n, found, ?_, ?_, by omega⟩
  · have some_digit : 0 < leastFull := by decide
    unfold shortest
    rw [if_neg (by omega), search]
  · -- the point that is found is on it as well, and it has no room for two
    obtain ⟨m', hm'⟩ := exists_on_finer_grid n after
    have same : m' = m := by
      refine eq_of_near_on_grid (g := 10 ^ fine) ?_
      rw [← hm, ← hm']
      calc |(n : ℚ) * 10 ^ found - c * 10 ^ unit|
          ≤ |(n : ℚ) * 10 ^ found - x.magnitude| + |x.magnitude - c * 10 ^ unit| :=
            abs_sub_le _ _ _
        _ ≤ 2 ^ x.exponent / 2 + 2 ^ x.exponent / 2 :=
            add_le_add (abs_sub_le_of_covers (onGrid?_covers hit))
              (by rw [abs_sub_comm]; exact abs_sub_le_of_covers h)
        _ = 2 ^ x.exponent := add_halves _
        _ < 10 ^ fine := narrow
    rw [hm, hm', same]

end Decimal

end Binary64
end Backtest
