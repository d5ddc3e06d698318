/-
Reading the text of a floating-point number as a decimal amount. The text shows the shortest digits,
without the zeros at their end, either with a point among them or with an exponent. Both layouts are
read as exactly these digits if they have no more than 28 places (`exists_read_chars`).
-/
import Backtest.Proofs.Binary64.Shortest
import Backtest.Proofs.Decimal.Text
import Mathlib.Data.List.TakeWhile

namespace Backtest

-- The power of naturals and integers is the one of the core library in every context.
attribute [local instance (high)] instPowNat

namespace Binary64

open Decimal (ReadsAs readsAs_ofParts readsAs_point)

/-! ## Digits without zeros at their end -/

theorem trimDigits_eq (digits : List Char) (exponent : ℤ) : ∃ kept k,
    digits = kept ++ List.replicate k '0' ∧ trimDigits digits exponent = (kept, exponent + k) := by
  have split_end := List.takeWhile_append_dropWhile (p := (· == '0')) (l := digits.reverse)
  have zeros : (digits.reverse.takeWhile (· == '0')).reverse =
      List.replicate (digits.reverse.takeWhile (· == '0')).length '0' := by
    rw [List.eq_replicate_iff]
    refine ⟨List.length_reverse, fun c hc => ?_⟩
    simpa using List.mem_takeWhile_imp (List.mem_reverse.1 hc)
  have parts : digits = (digits.reverse.dropWhile (· == '0')).reverse ++
      List.replicate (digits.reverse.takeWhile (· == '0')).length '0' := by
    rw [← zeros, ← List.reverse_append, split_end, List.reverse_reverse]
  refine ⟨_, _, parts, ?_⟩
  have length := congrArg List.length parts
  rw [List.length_append, List.length_replicate] at length
  unfold trimDigits
  dsimp only
  congr 2
  omega

/-- The digits of a number without zeros at their end, and a power of ten that makes up for them. -/
theorem trimDigits_spec {n : ℕ} (pos : 0 < n) (unit : ℤ) : ∃ digits ds exponent,
    trimDigits (Nat.toDigits 10 n) unit = (digits, exponent) ∧ digits.map digit? = ds.map some ∧
      digits ≠ [] ∧ 10 ^ (digits.length - 1) ≤ digitsValue ds ∧ digitsValue ds ≤ n ∧
      unit ≤ exponent ∧ (digitsValue ds : ℚ) * (10 : ℚ) ^ exponent = n * 10 ^ unit := by
  obtain ⟨kept, k, parts, trimmed⟩ := trimDigits_eq (Nat.toDigits 10 n) unit
  obtain ⟨all, digits, value, front⟩ := exists_digits_toDigits n
  rw [parts, List.map_append] at digits
  obtain ⟨ds, zeros, rfl, hk, hz⟩ := List.append_eq_map_iff.1 digits
  have zeros_eq : zeros = List.replicate k 0 := by
    refine List.map_injective_iff.2 (Option.some_injective ℕ) ?_
    rw [hz, List.map_replicate, List.map_replicate]
    rfl
  subst zeros_eq
  rw [digitsValue_append_list, digitsValue_replicate_zero, Nat.add_zero,
    List.length_replicate] at value
  have length : kept.length = ds.length := by simpa using (congrArg List.length hk).symm
  rcases ds with _ | ⟨d, later⟩
  · rw [digitsValue, List.foldl_nil, Nat.zero_mul] at value
    exact absurd value pos.ne
  have first : d ≠ 0 := by
    rcases front with single | ⟨d', later', e, nonzero⟩
    · rw [List.cons_append, List.cons.injEq, List.append_eq_nil_iff] at single
      obtain ⟨rfl, rfl, -⟩ := single
      rw [digitsValue, List.foldl_cons, List.foldl_nil, Nat.mul_zero, Nat.zero_mul] at value
      exact absurd value pos.ne
    · rw [List.cons_append, List.cons.injEq] at e
      rw [e.1]
      exact nonzero
  have least : digitsValue (d :: later) ≤ n :=
    value ▸ Nat.le_mul_of_pos_right _ (Nat.pow_pos (by decide))
  refine ⟨kept, d :: later, unit + k, trimmed, hk.symm, ?_, ?_, least, by omega, ?_⟩
  · rintro rfl
    cases hk
  · rw [length, List.length_cons, Nat.add_sub_cancel, digitsValue_cons]
    have := Nat.le_mul_of_pos_left (10 ^ later.length) (Nat.pos_of_ne_zero first)
    omega
  · rw [← value, add_comm unit, zpow_add₀ (by norm_num), zpow_natCast, ← mul_assoc]
    push_cast
    rfl

/-! ## Positional layout -/

theorem map_digit?_zeros (k : ℕ) :
    (List.replicate k '0').map digit? = (List.replicate k 0).map some := by
  rw [List.map_replicate, List.map_replicate]
  rfl

theorem positional_before (digits : List Char) (k : ℕ) :
    positional digits (-(k : ℤ)) = ['0'] ++ '.' :: (List.replicate k '0' ++ digits) := by
  unfold positional
  rw [if_pos (by omega), Int.neg_neg, Int.toNat_natCast]
  rfl

theorem positional_among {digits : List Char} {k : ℕ} (pos : 0 < k) (h : k < digits.length) :
    positional digits k = digits.take k ++ '.' :: digits.drop k := by
  have later : digits.drop k ≠ [] := fun e => absurd (List.drop_eq_nil_iff.1 e) (by omega)
  unfold positional
  rw [if_neg (by omega), Int.toNat_natCast]
  dsimp only
  rw [if_neg later, Nat.sub_eq_zero_of_le h.le, List.replicate_zero, List.append_nil]

theorem positional_after {digits : List Char} {k : ℕ} (pos : 0 < k) (h : digits.length ≤ k) :
    positional digits k = digits ++ List.replicate (k - digits.length) '0' ++ '.' :: ['0'] := by
  unfold positional
  rw [if_neg (by omega), Int.toNat_natCast]
  dsimp only
  rw [if_pos (List.drop_eq_nil_iff.2 h), List.take_of_length_le h]

section Layout

variable {digits : List Char} {ds : List ℕ} {exponent : ℤ}
  (spelled : digits.map digit? = ds.map some)

include spelled

theorem length_eq_of_spelled : digits.length = ds.length := by
  simpa using congrArg List.length spelled

variable (some_digit : digits ≠ []) (places : -28 ≤ exponent)
  (fits : digitsValue ds * 10 ^ (exponent.toNat + 1) < Decimal.bound)

include some_digit places fits

/-- Digits with the point among or around them are read as they stand. -/
theorem readsAs_positional (negative : Bool) :
    ReadsAs negative ((digitsValue ds : ℚ) * (10 : ℚ) ^ exponent)
      (Decimal.readPlain ((if negative then ['-'] else []) ++
        positional digits (exponent + digits.length))) := by
  have length := length_eq_of_spelled spelled
  have small : digitsValue ds < Decimal.bound :=
    lt_of_le_of_lt (Nat.le_mul_of_pos_right _ (Nat.pow_pos (by decide))) fits
  have zero : ['0'].map digit? = [0].map some := rfl
  by_cases before : exponent + digits.length ≤ 0
  · obtain ⟨k, hk⟩ : ∃ k : ℕ, -(exponent + digits.length) = k :=
      Int.eq_ofNat_of_zero_le (by omega)
    have width : (List.replicate k 0 ++ ds).length = k + ds.length := by simp
    have fraction : (List.replicate k '0' ++ digits).map digit? =
        (List.replicate k 0 ++ ds).map some := by
      rw [List.map_append, List.map_append, map_digit?_zeros, spelled]
    rw [← Int.neg_neg (exponent + digits.length), hk, positional_before]
    exact readsAs_point zero fraction (List.cons_ne_nil _ _) (by omega)
      (digitsValue_zeros_append (k + 1) ds) small (by congr 2; omega) negative
  · obtain ⟨k, hk⟩ : ∃ k : ℕ, exponent + digits.length = k := Int.eq_ofNat_of_zero_le (by omega)
    rw [hk]
    rcases Nat.lt_or_ge k digits.length with among | after
    · have split_spelled : (digits.take k).map digit? = (ds.take k).map some ∧
          (digits.drop k).map digit? = (ds.drop k).map some := by
        simp only [List.map_take, List.map_drop, spelled, and_self]
      have front : digits.take k ≠ [] := by
        rw [← List.length_pos_iff, List.length_take]
        omega
      have width : (ds.drop k).length = ds.length - k := List.length_drop
      rw [positional_among (by omega) among]
      exact readsAs_point split_spelled.1 split_spelled.2 front (by omega)
        (by rw [List.take_append_drop]) small (by congr 2; omega) negative
    · obtain ⟨j, rfl⟩ := Int.eq_ofNat_of_zero_le (show 0 ≤ exponent by omega)
      have zeros : k - digits.length = j := by omega
      rw [Int.toNat_natCast] at fits
      have whole : (digits ++ List.replicate j '0').map digit? =
          (ds ++ List.replicate j 0).map some := by
        rw [List.map_append, List.map_append, map_digit?_zeros, spelled]
      have value : digitsValue (ds ++ List.replicate j 0 ++ [0]) =
          digitsValue ds * 10 ^ (j + 1) := by
        rw [digitsValue_append, digitsValue_append_list, digitsValue_replicate_zero,
          List.length_replicate, Nat.pow_succ, ← Nat.mul_assoc]
        omega
      rw [positional_after (by omega) after, zeros]
      refine readsAs_point whole zero (by simp [some_digit]) (by decide) value fits ?_ negative
      rw [List.length_singleton, zpow_natCast, Nat.cast_one, zpow_neg_one]
      push_cast
      ring

end Layout

/-! ## Layout with an exponent -/

theorem mapM_digit? : ∀ {cs : List Char} {ds : List ℕ}, cs.map digit? = ds.map some →
    cs.mapM digit? = some ds
  | [], ds, h => by
    cases List.map_eq_nil_iff.1 h.symm
    rfl
  | c :: cs, [], h => by cases h
  | c :: cs, d :: ds, h => by
    rw [List.map_cons, List.map_cons, List.cons.injEq] at h
    rw [List.mapM_cons, h.1, mapM_digit? h.2]
    rfl

/-- The exponent is read from its digits. -/
theorem readWord_toDigits {n : ℕ} (h : n ≤ Decimal.maxWord) :
    Decimal.readWord (Nat.toDigits 10 n) = some n := by
  obtain ⟨ds, spelled, value, -⟩ := exists_digits_toDigits n
  have read := mapM_digit? spelled
  rcases hd : Nat.toDigits 10 n with _ | ⟨c, rest⟩
  · exact absurd hd Nat.toDigits_ne_nil
  · rw [hd] at spelled read
    have unsigned : c ≠ '+' := by
      rintro rfl
      cases ds <;> cases spelled
    simp [Decimal.readWord, unsigned, read, value, h]

/-- No digit is read past the mark of an exponent. -/
theorem readDigits_mark {negative point : Bool} {m scale : ℕ} (hm : m < Decimal.bound)
    (room : scale < 28) (rest : List Char) :
    Decimal.readDigits negative ('e' :: rest) point true m scale hm room.le =
      .error .unknownCharacter := by
  rw [Decimal.readDigits, dif_pos room]
  rfl

/-- The scientific form is read from its base, which has no mark, and the digits of an exponent below
zero. -/
theorem readScientific_eq {base : List Char} (unmarked : ∀ c ∈ base, (c == 'e' || c == 'E') = false)
    {n : ℕ} (h : n ≤ 28) {d : Decimal} (read : Decimal.readPlain base = .ok d) :
    Decimal.readScientific (base ++ 'e' :: '-' :: Nat.toDigits 10 n) =
      .ok (Decimal.shiftDown n d) := by
  have kept : ∀ c ∈ base, (!(c == 'e' || c == 'E')) = true := fun c hc => by rw [unmarked c hc]; rfl
  have word : Decimal.readWord (Nat.toDigits 10 n) = some n :=
    readWord_toDigits (by unfold Decimal.maxWord; omega)
  unfold Decimal.readScientific
  dsimp only
  rw [List.takeWhile_append_of_pos kept, List.dropWhile_append_of_pos kept]
  simp only [List.takeWhile_cons, List.dropWhile_cons, beq_self_eq_true, Bool.true_or, Bool.not_true,
    Bool.false_eq_true, if_false, List.append_nil, read, word, if_pos h]
  rfl

/-- The first digit and a point before the others. -/
def leadChars (digits : List Char) : List Char :=
  digits.take 1 ++ if digits.drop 1 = [] then [] else '.' :: digits.drop 1

theorem exponential_eq (digits : List Char) {n : ℕ} (h : 0 < n) :
    exponential digits (-(n : ℤ)) = leadChars digits ++ 'e' :: '-' :: Nat.toDigits 10 n := by
  have below : -(n : ℤ) < 0 := by omega
  unfold exponential
  dsimp only
  rw [if_pos below, Int.natAbs_neg, Int.natAbs_natCast, List.append_assoc _ ['e', '-']]
  rfl

section Layout

variable {digits : List Char} {ds : List ℕ} (spelled : digits.map digit? = ds.map some)

include spelled

theorem unmarked_leadChars (negative : Bool) :
    ∀ c ∈ (if negative then ['-'] else []) ++ leadChars digits, (c == 'e' || c == 'E') = false := by
  have digit : ∀ c ∈ digits, (c == 'e' || c == 'E') = false := by
    intro c hc
    obtain ⟨d, hd⟩ := exists_digit_of_mem spelled hc
    simp only [Bool.or_eq_false_iff, beq_eq_false_iff_ne]
    constructor <;> (rintro rfl; cases hd)
  intro c hc
  rcases List.mem_append.1 hc with sign | lead
  · split at sign
    · cases List.mem_singleton.1 sign
      rfl
    · cases sign
  · rcases List.mem_append.1 lead with first | later
    · exact digit c (List.mem_of_mem_take first)
    · split at later
      · cases later
      · rcases List.mem_cons.1 later with rfl | later
        · rfl
        · exact digit c (List.mem_of_mem_drop later)

/-- All digits but the first are read as fraction digits, before whatever follows. -/
theorem exists_readPlain_leadChars (some_digit : digits ≠ []) (fits : digitsValue ds < Decimal.bound)
    (short : digits.length - 1 ≤ 28) (negative : Bool) : ∃ point, ∀ rest,
      Decimal.readPlain ((if negative then ['-'] else []) ++ leadChars digits ++ rest) =
        Decimal.readDigits negative rest point true (digitsValue ds) (digits.length - 1) fits short := by
  have length := length_eq_of_spelled spelled
  unfold leadChars
  by_cases single : digits.drop 1 = []
  · have one : digits.take 1 = digits := List.take_of_length_le (List.drop_eq_nil_iff.1 single)
    have scale : digits.length - 1 = 0 := by
      have := List.drop_eq_nil_iff.1 single
      omega
    refine ⟨false, fun rest => ?_⟩
    rw [if_pos single, List.append_nil, one, Decimal.readPlain_digits spelled some_digit rfl fits]
    simp only [scale]
  · have first : (digits.take 1).map digit? = (ds.take 1).map some := by
      simp only [List.map_take, spelled]
    have later : (digits.drop 1).map digit? = (ds.drop 1).map some := by
      simp only [List.map_drop, spelled]
    have scale : (ds.drop 1).length = digits.length - 1 := by rw [List.length_drop, length]
    refine ⟨true, fun rest => ?_⟩
    rw [if_neg single, ← List.append_assoc, List.append_assoc _ _ rest, List.cons_append,
      Decimal.readPlain_point_digits first later (by simp [some_digit])
        (by rw [List.take_append_drop]) fits (by omega)]
    simp only [scale]

/-- Digits with an exponent below zero are read as they stand. -/
theorem readsAs_exponential (some_digit : digits ≠ []) (fits : digitsValue ds < Decimal.bound)
    {exponent : ℤ} (places : -28 ≤ exponent) (below : exponent + digits.length - 1 < 0)
    (negative : Bool) : ReadsAs negative ((digitsValue ds : ℚ) * (10 : ℚ) ^ exponent)
      (Decimal.read ((if negative then ['-'] else []) ++
        exponential digits (exponent + digits.length - 1))) := by
  have some_length := List.length_pos_iff.2 some_digit
  obtain ⟨n, hn⟩ : ∃ n : ℕ, -(exponent + digits.length - 1) = n :=
    Int.eq_ofNat_of_zero_le (by omega)
  obtain ⟨point, read⟩ := exists_readPlain_leadChars spelled some_digit fits (by omega) negative
  have base := read []
  have marked := read ('e' :: '-' :: Nat.toDigits 10 n)
  rw [List.append_nil] at base
  rw [readDigits_mark fits (by omega)] at marked
  rw [← Int.neg_neg (exponent + digits.length - 1), hn, exponential_eq digits (by omega),
    ← List.append_assoc]
  unfold Decimal.read
  rw [marked]
  dsimp only
  rw [readScientific_eq (unmarked_leadChars spelled negative) (by omega) base]
  have room : digits.length - 1 + n ≤ 28 := by omega
  have shifted : Decimal.shiftDown n
      (Decimal.ofParts negative (digitsValue ds) (digits.length - 1) fits (by omega)) =
        Decimal.ofParts negative (digitsValue ds) (digits.length - 1 + n) fits room :=
    dif_pos room
  rw [shifted]
  exact readsAs_ofParts fits room (by congr 2; omega)

end Layout

/-! ## The text of a number -/

variable {x : Binary64}

/-- The text of a number shows its shortest digits, and these are read as they stand. -/
theorem readsAs_chars {n : ℕ} {unit : ℤ} (digits : x.shortest = (n, unit)) (pos : 0 < n)
    (few : n < 10 ^ 16) (places : -28 ≤ unit) (small : (n : ℚ) * (10 : ℚ) ^ unit < 10 ^ 15) :
    ReadsAs x.negative ((n : ℚ) * (10 : ℚ) ^ unit) (Decimal.read x.chars) := by
  obtain ⟨digits', ds, exponent, trimmed, spelled, some_digit, front, least, after, value⟩ :=
    trimDigits_spec pos unit
  have step : (0 : ℚ) < 10 ^ exponent := zpow_pos (by norm_num) _
  have some_length := List.length_pos_iff.2 some_digit
  have small_digits : digitsValue ds < 10 ^ 16 := lt_of_le_of_lt least few
  have room : (10 : ℕ) ^ 17 ≤ Decimal.bound := by decide
  rw [← value] at small ⊢
  have lead : exponent + digits'.length - 1 < 15 := by
    have first : exponent + digits'.length - 1 = ((digits'.length - 1 : ℕ) : ℤ) + exponent := by
      omega
    refine (zpow_lt_zpow_iff_right₀ (by norm_num : (1 : ℚ) < 10)).1 (lt_of_le_of_lt ?_ small)
    rw [first, zpow_add₀ (by norm_num), zpow_natCast]
    exact mul_le_mul_of_nonneg_right (by exact_mod_cast front) step.le
  unfold chars
  dsimp only
  rw [digits]
  dsimp only
  rw [if_neg pos.ne', trimmed]
  dsimp only
  by_cases near : -5 ≤ exponent + digits'.length - 1 ∧ exponent + digits'.length - 1 < 16
  · rw [if_pos near, Int.sub_add_cancel]
    have fits : digitsValue ds * 10 ^ (exponent.toNat + 1) < Decimal.bound := by
      rcases le_or_gt 0 exponent with whole | broken
      · obtain ⟨j, rfl⟩ := Int.eq_ofNat_of_zero_le whole
        rw [zpow_natCast] at small
        have small' : digitsValue ds * 10 ^ j < 10 ^ 15 := by exact_mod_cast small
        rw [Int.toNat_natCast, Nat.pow_succ, ← Nat.mul_assoc]
        omega
      · rw [Int.toNat_of_nonpos broken.le, Nat.zero_add, Nat.pow_one]
        omega
    exact (readsAs_positional spelled some_digit (by omega) fits x.negative).read
  · rw [if_neg near]
    exact readsAs_exponential spelled some_digit (by omega) (by omega) (by omega) x.negative

/-- A decimal with at most fifteen digits is read from the text of the number that it is rounded
to. -/
theorem readsAs_chars_of_covers (full : leastFull ≤ x.significand) {c : ℕ} {unit : ℤ} (pos : 0 < c)
    (few : c < 10 ^ 15) (places : -27 ≤ unit) (small : (c : ℚ) * (10 : ℚ) ^ unit < 10 ^ 15)
    (h : x.covers ((c : ℚ) * (10 : ℚ) ^ unit) = true) :
    ReadsAs x.negative ((c : ℚ) * (10 : ℚ) ^ unit) (Decimal.read x.chars) := by
  obtain ⟨n, found, digits, value, after⟩ := shortest_of_covers full pos few h
  have step : (0 : ℚ) < 10 ^ (unit - 1) := zpow_pos (by norm_num) _
  have some_digit : 0 < n := by
    rcases Nat.eq_zero_or_pos n with rfl | some_digit
    · rw [Nat.cast_zero, zero_mul] at value
      have : (0 : ℚ) < c * 10 ^ unit := mul_pos (Nat.cast_pos.2 pos) (zpow_pos (by norm_num) _)
      linarith
    · exact some_digit
  have le : (n : ℚ) ≤ 10 * c := by
    refine le_of_mul_le_mul_right ?_ step
    calc (n : ℚ) * 10 ^ (unit - 1) ≤ n * 10 ^ found :=
          mul_le_mul_of_nonneg_left (zpow_le_zpow_right₀ (by norm_num) after) (Nat.cast_nonneg _)
      _ = c * 10 ^ (1 + (unit - 1)) := by rw [value, add_sub_cancel]
      _ = 10 * c * 10 ^ (unit - 1) := by rw [zpow_add₀ (by norm_num), zpow_one]; ring
  have le' : n ≤ 10 * c := by exact_mod_cast le
  rw [← value] at small ⊢
  exact readsAs_chars digits some_digit (by omega) (by omega) small

end Binary64
end Backtest
