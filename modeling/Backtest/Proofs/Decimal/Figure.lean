/-
The figure that a report shows for an amount. Its value is the multiple of a hundredth nearest to
the amount, a tie going away from zero (`NearestCents`); there is only one, so figures are odd,
monotone and exact where they can be. Its digits are two after the point, unless the magnitude has
no room for them (`scale_padZeros`).
-/
import Backtest.Proofs.Decimal.Cents

namespace Backtest

/-! ## The whole number nearest to a ratio -/

theorem halfAway_of_nonneg {q : ℚ} (h : 0 ≤ q) : halfAway q = round q :=
  if_pos h

theorem halfAway_neg (q : ℚ) : halfAway (-q) = -halfAway q := by
  unfold halfAway
  rcases lt_trichotomy q 0 with h | rfl | h
  · rw [if_pos (by linarith), if_neg (by linarith), neg_neg]
  · simp
  · rw [if_neg (by linarith), if_pos h.le, neg_neg]

theorem abs_halfAway_sub_le (q : ℚ) : |halfAway q - q| ≤ 1 / 2 := by
  have nearest {x : ℚ} (h : 0 ≤ x) : |halfAway x - x| ≤ 1 / 2 := by
    rw [halfAway_of_nonneg h, abs_sub_comm]
    exact abs_sub_round x
  rcases le_total 0 q with h | h
  · exact nearest h
  · have opposite := nearest (neg_nonneg.2 h)
    rw [halfAway_neg, Int.cast_neg, neg_sub_neg, abs_sub_comm] at opposite
    exact opposite

/-- Half-way between two whole numbers the one away from zero is taken. -/
theorem abs_lt_halfAway {q : ℚ} (h : |halfAway q - q| = 1 / 2) : |q| < |(halfAway q : ℚ)| := by
  have away {x : ℚ} (nonneg : 0 ≤ x) (tie : |halfAway x - x| = 1 / 2) :
      |x| < |(halfAway x : ℚ)| := by
    rw [halfAway_of_nonneg nonneg] at *
    have below : x < round x + 1 / 2 := by
      have := Int.lt_floor_add_one (x + 1 / 2)
      rw [← round_eq] at this
      linarith
    rcases abs_choice ((round x : ℚ) - x) with e | e <;> rw [e] at tie
    · rw [abs_of_nonneg nonneg, abs_of_pos] <;> linarith
    · linarith
  rcases le_total 0 q with nonneg | nonpos
  · exact away nonneg h
  · have opposite := @away (-q) (neg_nonneg.2 nonpos)
    rw [halfAway_neg, Int.cast_neg, neg_sub_neg, abs_sub_comm, abs_neg, abs_neg] at opposite
    exact opposite h

/-- The two neighbours of a half are not both farther from zero than it is. -/
theorem abs_le_of_half (n : ℤ) :
    |(n : ℚ)| ≤ |(n : ℚ) + 1 / 2| ∨ |(n : ℚ) + 1| ≤ |(n : ℚ) + 1 / 2| := by
  rcases le_or_gt 0 n with h | h
  · have h : (0 : ℚ) ≤ n := by exact_mod_cast h
    left
    rw [abs_of_nonneg h, abs_of_nonneg] <;> linarith
  · have h : (n : ℚ) + 1 ≤ 0 := by exact_mod_cast h
    right
    rw [abs_of_nonpos h, abs_of_nonpos] <;> linarith

/-- There is one nearest whole number, once ties are settled. -/
theorem eq_halfAway {q : ℚ} {n : ℤ} (near : |n - q| ≤ 1 / 2)
    (away : |n - q| = 1 / 2 → |q| < |(n : ℚ)|) :
    n = halfAway q := by
  have near' := abs_halfAway_sub_le q
  have away' := @abs_lt_halfAway q
  generalize halfAway q = m at *
  rw [abs_le] at near near'
  rcases lt_trichotomy n m with h | rfl | h
  · -- both are half a unit away, on either side
    have gap : (n : ℚ) + 1 ≤ m := by exact_mod_cast h
    have middle : q = n + 1 / 2 := by linarith
    have upper : (m : ℚ) = n + 1 := by linarith
    subst middle
    rw [upper] at away'
    have far := away (by norm_num)
    have far' := away' (by norm_num)
    rcases abs_le_of_half n with e | e <;> linarith
  · rfl
  · have gap : (m : ℚ) + 1 ≤ n := by exact_mod_cast h
    have middle : q = m + 1 / 2 := by linarith
    have upper : (n : ℚ) = m + 1 := by linarith
    subst middle
    rw [upper] at away
    have far := away (by norm_num)
    have far' := away' (by norm_num)
    rcases abs_le_of_half m with e | e <;> linarith

/-! ## The nearest number of cents -/

/-- A whole number of hundredths that is as near to `q` as one can be, and of two the one away from
zero. -/
structure NearestCents (q shown : ℚ) : Prop where
  whole : ∃ n : ℤ, shown * 100 = n
  near : |shown - q| ≤ 1 / 200
  away : |shown - q| = 1 / 200 → |q| < |shown|

/-- Of a hundredfold all distances are a hundredfold. -/
theorem abs_hundredfold (a b : ℚ) : |a * 100 - b * 100| = |a - b| * 100 := by
  rw [← sub_mul, abs_mul, abs_of_pos (by norm_num : (0 : ℚ) < 100)]

theorem nearestCents_iff {q shown : ℚ} :
    NearestCents q shown ↔ shown = halfAway (q * 100) / 100 := by
  constructor
  · rintro ⟨⟨n, whole⟩, near, away⟩
    have scaled : |(n : ℚ) - q * 100| = |shown - q| * 100 := by rw [← whole, abs_hundredfold]
    have nearest : n = halfAway (q * 100) := by
      refine eq_halfAway (by linarith) fun tie => ?_
      have far := away (by linarith)
      rw [← whole, abs_mul, abs_mul]
      exact mul_lt_mul_of_pos_right far (by norm_num)
    rw [← nearest, ← whole, mul_div_cancel_right₀ _ (by norm_num)]
  · rintro rfl
    have near := abs_halfAway_sub_le (q * 100)
    have away := @abs_lt_halfAway (q * 100)
    generalize halfAway (q * 100) = n at *
    have whole : (n : ℚ) / 100 * 100 = n := by field_simp
    rw [← whole, abs_hundredfold] at near away
    rw [abs_mul, abs_mul] at away
    refine ⟨⟨n, whole⟩, by linarith, fun tie => ?_⟩
    exact lt_of_mul_lt_mul_right (away (by linarith)) (by norm_num)

namespace Decimal

/-! ## Signs and digits -/

theorem toCents_eq (d : Decimal) :
    d.toCents = (d.toPlaces 2).padZeros (2 - (d.toPlaces 2).scale) := rfl

theorem toPlaces_of_scale_le {d : Decimal} {places : ℕ} (h : d.scale ≤ places) :
    d.toPlaces places = d :=
  dif_pos h

/-- Zeros are appended for the magnitude and the scale alone. -/
theorem scale_padZeros_congr : ∀ (n : ℕ) {d e : Decimal}, d.magnitude = e.magnitude →
    d.scale = e.scale → (d.padZeros n).scale = (e.padZeros n).scale
  | 0, _, _, _, hs => hs
  | n + 1, ⟨_, m, s, _, _⟩, ⟨_, m', s', _, _⟩, hm, hs => by
    dsimp only at hm hs
    subst hm hs
    unfold padZeros
    split
    · exact scale_padZeros_congr n rfl rfl
    · rfl

theorem scale_toCents_neg (d : Decimal) : (-d).toCents.scale = d.toCents.scale := by
  have shape : ((-d).toPlaces 2).magnitude = (d.toPlaces 2).magnitude ∧
      ((-d).toPlaces 2).scale = (d.toPlaces 2).scale := by
    rcases le_or_gt d.scale 2 with short | long
    · rw [toPlaces_of_scale_le short, toPlaces_of_scale_le (d := -d) short]
      exact ⟨rfl, rfl⟩
    · unfold toPlaces
      rw [dif_neg (not_le.2 long), dif_neg (not_le.2 (show 2 < (-d).scale from long))]
      exact ⟨rfl, rfl⟩
  rw [toCents_eq, toCents_eq, shape.2]
  exact scale_padZeros_congr _ shape.1 shape.2

theorem scale_toPlaces_le (places : ℕ) (d : Decimal) : (d.toPlaces places).scale ≤ places := by
  unfold toPlaces
  split
  · assumption
  · exact le_rfl

/-- Zeros are appended up to the given number, or as far as the magnitude has room. -/
theorem scale_padZeros : ∀ {n : ℕ} {d : Decimal}, d.scale + n ≤ 28 →
    (d.padZeros n).scale = d.scale + n ∨
      (d.padZeros n).scale < d.scale + n ∧ bound ≤ (d.padZeros n).magnitude * 10
  | 0, _, _ => .inl rfl
  | n + 1, d, h => by
    unfold padZeros
    split
    · next room =>
      have later := @scale_padZeros n ⟨d.negative, d.magnitude * 10, d.scale + 1, room.1, room.2⟩
        (by dsimp only; omega)
      dsimp only at later
      omega
    · next full => exact .inr ⟨by omega, by omega⟩

/-- A figure has two places, or fewer and a magnitude without room for another. -/
theorem scale_toCents (d : Decimal) :
    d.toCents.scale = 2 ∨ d.toCents.scale < 2 ∧ bound ≤ d.toCents.magnitude * 10 := by
  have short := scale_toPlaces_le 2 d
  have padded := @scale_padZeros (2 - (d.toPlaces 2).scale) (d.toPlaces 2) (by omega)
  rwa [Nat.add_sub_cancel' short] at padded

/-- A figure is shown as it is. -/
theorem toCents_toCents (d : Decimal) : d.toCents.toCents = d.toCents := by
  have digits := scale_toCents d
  generalize d.toCents = e at *
  rw [toCents_eq, toPlaces_of_scale_le (by omega)]
  rcases digits with two | ⟨short, full⟩
  · rw [two]
    rfl
  · obtain ⟨n, hn⟩ : ∃ n, 2 - e.scale = n + 1 := ⟨1 - e.scale, by omega⟩
    rw [hn, padZeros, dif_neg (by omega)]

/-- There are two places exactly if the figure in cents is in the range of magnitudes. -/
theorem scale_toCents_eq_two_iff (d : Decimal) :
    d.toCents.scale = 2 ↔ |d.toCents.toRat * 100| < bound := by
  have digits := scale_toCents d
  generalize d.toCents = e at *
  have magnitude : |e.toRat * 100| * 10 ^ e.scale = e.magnitude * 100 := by
    rw [abs_mul, abs_toRat]
    norm_num
    field_simp
  constructor
  · intro two
    rw [two] at magnitude
    have : |e.toRat * 100| = e.magnitude := by linarith
    rw [this]
    exact_mod_cast e.magnitude_lt
  · intro small
    rcases digits with two | ⟨short, full⟩
    · exact two
    · have full : (bound : ℚ) ≤ e.magnitude * 10 := by exact_mod_cast full
      have power : (10 : ℚ) ^ e.scale ≤ 10 ^ 1 := pow_le_pow_right₀ (by norm_num) (by omega)
      have wide : |e.toRat * 100| * 10 ^ e.scale ≤ |e.toRat * 100| * 10 ^ 1 :=
        mul_le_mul_of_nonneg_left power (abs_nonneg _)
      linarith

/-- Every amount has a figure, and its value is the nearest number of cents, a tie going away from
zero: an amount of whole cents is its own figure in value, the figure of the negated amount is the
negated figure (with the same digits), larger amounts have figures that are no smaller, and the
figure of a figure is that figure. It has two places exactly if its number of cents is in the range
of magnitudes. -/
theorem toCents_spec (x : Decimal) :
    (∀ q : ℚ, x.toCents.toRat = q ↔ NearestCents x.toRat q) ∧
    (∀ n : ℤ, x.toRat * 100 = n → x.toCents.toRat = x.toRat) ∧
    ((-x).toCents.toRat = (-x.toCents).toRat ∧ (-x).toCents.scale = x.toCents.scale) ∧
    (∀ y, x ≤ y → x.toCents ≤ y.toCents) ∧
    x.toCents.toCents = x.toCents ∧
    (x.toCents.scale = 2 ↔ |x.toCents.toRat * 100| < bound) := by
  refine ⟨fun q => ?_, fun n => toRat_toCents_of_cents n, ⟨?_, scale_toCents_neg x⟩,
    fun y => toCents_mono, toCents_toCents x, scale_toCents_eq_two_iff x⟩
  · rw [toRat_toCents, nearestCents_iff, eq_comm]
  · rw [toRat_neg, toRat_toCents, toRat_toCents, toRat_neg, neg_mul, halfAway_neg, Int.cast_neg,
      neg_div]

/-- An amount of which the magnitude has no room for a second place, and a tie below zero. -/
theorem toCents_of_full_magnitude :
    let x : Decimal := ⟨false, 79228162514264337593543950335, 1, by decide, by decide⟩
    let y : Decimal := ⟨false, 79228162514264337593543950335, 0, by decide, by decide⟩
    let tie : Decimal := ⟨true, 5, 3, by decide, by decide⟩
    x.toRat * 100 = (792281625142643375935439503350 : ℤ) ∧ x.toCents.toRat = x.toRat ∧
      x ≤ y ∧ x.toCents ≤ y.toCents ∧ x.toCents.scale = 1 ∧ ¬ |x.toCents.toRat * 100| < bound ∧
      NearestCents tie.toRat (-1 / 100) := by
  intro x y tie
  have cents : x.toRat * 100 = (792281625142643375935439503350 : ℤ) := by decide +kernel
  have le : x ≤ y := by decide +kernel
  have scale : x.toCents.scale = 1 := by decide +kernel
  obtain ⟨-, exact_cents, -, mono, -, two⟩ := toCents_spec x
  obtain ⟨nearest, -⟩ := toCents_spec tie
  refine ⟨cents, exact_cents _ cents, le, mono y le, scale, fun small => ?_, (nearest _).1 ?_⟩
  · have := two.2 small
    omega
  · decide +kernel

end Decimal
end Backtest
