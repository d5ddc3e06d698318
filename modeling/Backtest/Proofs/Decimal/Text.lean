/-
Reading plain decimal text. Digits with at most one point among them are read as they stand, if no
more than 28 of them follow the point and the number that they spell fits (`readPlain_point`). The
text of an amount is of this kind, so it is read back as the amount (`read_chars`), except that zero
loses its sign. Amounts that rounding gives, and their figures, have no such zero, so they are read
back as they are.
-/
import Backtest.Decimal.Reader
import Backtest.Decimal.Text
import Backtest.Proofs.Decimal.Cents
import Backtest.Proofs.Digits
import Backtest.Text.Blank

namespace Backtest.Decimal

-- The power of naturals and integers is the one of the core library in every context.
attribute [local instance (high)] instPowNat

/-! ## Digits -/

section Digits

variable {negative point digits : Bool} {c : Char} {d magnitude scale : ℕ} {rest : List Char}

theorem readDigits_digit (digit : digit? c = some d) (hm : magnitude < bound) (room : scale < 28)
    (fits : magnitude * 10 + d < bound) :
    readDigits negative (c :: rest) point digits magnitude scale hm room.le =
      if point then readDigits negative rest point true (magnitude * 10 + d) (scale + 1) fits room
      else readDigits negative rest point true (magnitude * 10 + d) scale fits room.le := by
  conv_lhs => rw [readDigits]
  rw [dif_pos room]
  split
  · next d' digit' =>
    cases digit.symm.trans digit'
    rw [dif_pos fits]
  · next none => cases digit.symm.trans none

variable {m n : ℕ}

/-- The number so far with the value of further digits is at least what the first of them makes. -/
theorem next_le_of_value (ds : List ℕ) (value : m * 10 ^ (d :: ds).length + digitsValue (d :: ds) = n) :
    (m * 10 + d) * 10 ^ ds.length + digitsValue ds = n ∧ m * 10 + d ≤ n := by
  have split_value : (m * 10 + d) * 10 ^ ds.length + digitsValue ds = n := by
    rw [← value, digitsValue_cons, List.length_cons, Nat.pow_succ, Nat.add_mul, Nat.mul_assoc,
      Nat.mul_comm 10, Nat.add_assoc]
  refine ⟨split_value, ?_⟩
  have pos : 1 ≤ 10 ^ ds.length := Nat.pow_pos (by decide)
  calc m * 10 + d = (m * 10 + d) * 1 := (Nat.mul_one _).symm
    _ ≤ (m * 10 + d) * 10 ^ ds.length := Nat.mul_le_mul_left _ pos
    _ ≤ n := by omega

/-- Digits before the point. -/
theorem readDigits_whole : ∀ {cs : List Char} {ds : List ℕ} {m : ℕ} (hm : m < bound),
    cs.map digit? = ds.map some → m * 10 ^ ds.length + digitsValue ds = n → (fits : n < bound) →
    readDigits negative (cs ++ rest) false true m 0 hm (Nat.zero_le 28) =
      readDigits negative rest false true n 0 fits (Nat.zero_le 28)
  | [], ds, m, hm, h, value, fits => by
    cases List.map_eq_nil_iff.1 h.symm
    have same : m = n := by simpa [digitsValue] using value
    subst same
    rfl
  | c :: cs, [], m, hm, h, value, fits => by cases h
  | c :: cs, d :: ds, m, hm, h, value, fits => by
    rw [List.map_cons, List.map_cons, List.cons.injEq] at h
    obtain ⟨value', le⟩ := next_le_of_value ds value
    rw [List.cons_append, readDigits_digit h.1 hm (by decide) (Nat.lt_of_le_of_lt le fits)]
    exact readDigits_whole _ h.2 value' fits

/-- Digits after the point. -/
theorem readDigits_fraction : ∀ {cs : List Char} {ds : List ℕ} {m scale : ℕ} (hm : m < bound)
    (hs : scale ≤ 28), cs.map digit? = ds.map some → m * 10 ^ ds.length + digitsValue ds = n →
    (fits : n < bound) → (short : scale + ds.length ≤ 28) →
    readDigits negative (cs ++ rest) true true m scale hm hs =
      readDigits negative rest true true n (scale + ds.length) fits short
  | [], ds, m, scale, hm, hs, h, value, fits, short => by
    cases List.map_eq_nil_iff.1 h.symm
    have same : m = n := by simpa [digitsValue] using value
    subst same
    rfl
  | c :: cs, [], m, scale, hm, hs, h, value, fits, short => by cases h
  | c :: cs, d :: ds, m, scale, hm, hs, h, value, fits, short => by
    rw [List.map_cons, List.map_cons, List.cons.injEq] at h
    obtain ⟨value', le⟩ := next_le_of_value ds value
    have room : scale < 28 := by
      rw [List.length_cons] at short
      omega
    have places : scale + (d :: ds).length = scale + 1 + ds.length := by
      rw [List.length_cons]
      omega
    rw [List.cons_append, readDigits_digit h.1 hm room (Nat.lt_of_le_of_lt le fits)]
    simp only [if_true, places]
    exact readDigits_fraction _ room h.2 value' fits (places ▸ short)

end Digits

/-! ## Plain text -/

section Plain

variable {negative : Bool} {w f : List Char} {ds es : List ℕ}

/-- A minus sign in front of digits is taken off. -/
theorem readPlain_sign {c : Char} {d : ℕ} (digit : digit? c = some d) (rest : List Char) :
    readPlain ((if negative then ['-'] else []) ++ c :: rest) = readUnsigned negative (c :: rest) := by
  cases negative with
  | true => rfl
  | false =>
    have other : c ≠ '-' ∧ c ≠ '+' := by
      constructor <;> (rintro rfl; cases digit)
    simp only [Bool.false_eq_true, if_false, List.nil_append]
    unfold readPlain
    split
    · next e => cases e
    · next e => exact absurd (List.cons.inj e).1 other.1
    · next e => exact absurd (List.cons.inj e).1 other.2
    · rfl

/-- Digits, of which there is one at least, before whatever follows. -/
theorem readPlain_digits {n : ℕ} (hw : w.map digit? = ds.map some) (some_digit : w ≠ [])
    (value : digitsValue ds = n) (fits : n < bound) (rest : List Char) :
    readPlain ((if negative then ['-'] else []) ++ w ++ rest) =
      readDigits negative rest false true n 0 fits (Nat.zero_le 28) := by
  rcases w with _ | ⟨c, cs⟩
  · exact absurd rfl some_digit
  rcases ds with _ | ⟨d, ds⟩
  · cases hw
  rw [List.map_cons, List.map_cons, List.cons.injEq] at hw
  have start : 0 * 10 ^ (d :: ds).length + digitsValue (d :: ds) = n := by
    rw [Nat.zero_mul, Nat.zero_add, value]
  obtain ⟨value', le⟩ := next_le_of_value ds start
  rw [List.append_assoc, List.cons_append, readPlain_sign hw.1]
  show readDigits negative (c :: (cs ++ rest)) false false 0 0 (by decide) (Nat.zero_le 28) = _
  rw [readDigits_digit hw.1 (by decide) (by decide) (Nat.lt_of_le_of_lt le fits)]
  exact readDigits_whole _ hw.2 value' fits

theorem readPlain_whole (hw : w.map digit? = ds.map some) (some_digit : w ≠ [])
    (fits : digitsValue ds < bound) :
    readPlain ((if negative then ['-'] else []) ++ w) =
      .ok (ofParts negative (digitsValue ds) 0 fits (Nat.zero_le 28)) := by
  rw [← List.append_nil (_ ++ w), readPlain_digits hw some_digit rfl fits]
  rfl

/-- Digits with a point among them, before whatever follows. -/
theorem readPlain_point_digits {n : ℕ} (hw : w.map digit? = ds.map some)
    (hf : f.map digit? = es.map some) (some_digit : w ≠ []) (value : digitsValue (ds ++ es) = n)
    (fits : n < bound) (short : es.length ≤ 28) (rest : List Char) :
    readPlain ((if negative then ['-'] else []) ++ w ++ '.' :: (f ++ rest)) =
      readDigits negative rest true true n es.length fits short := by
  rw [digitsValue_append_list] at value
  have pos : 1 ≤ 10 ^ es.length := Nat.pow_pos (by decide)
  have front : digitsValue ds < bound := by
    have := Nat.le_mul_of_pos_right (digitsValue ds) pos
    omega
  have point : readDigits negative ('.' :: (f ++ rest)) false true (digitsValue ds) 0 front
      (Nat.zero_le 28) = readDigits negative (f ++ rest) true true (digitsValue ds) 0 front
        (Nat.zero_le 28) := by
    conv_lhs => rw [readDigits]
    rfl
  rw [readPlain_digits hw some_digit rfl front, point,
    readDigits_fraction front (Nat.zero_le 28) hf value fits (by omega)]
  simp only [Nat.zero_add]

/-- Digits with a point among them spell a number, and those after the point are its scale. -/
theorem readPlain_point (hw : w.map digit? = ds.map some) (hf : f.map digit? = es.map some)
    (some_digit : w ≠ []) (fits : digitsValue (ds ++ es) < bound) (short : es.length ≤ 28) :
    readPlain ((if negative then ['-'] else []) ++ w ++ '.' :: f) =
      .ok (ofParts negative (digitsValue (ds ++ es)) es.length fits short) := by
  rw [← List.append_nil f, readPlain_point_digits hw hf some_digit rfl fits short]
  rfl

end Plain

/-! ## The text of an amount -/

/-- What the text of an amount is read as: the amount, where zero has no sign. -/
def reread (d : Decimal) : Decimal :=
  ofParts d.negative d.magnitude d.scale d.magnitude_lt d.scale_le

theorem readPlain_chars (d : Decimal) :
    readPlain d.chars = .ok (ofParts d.negative d.magnitude d.scale d.magnitude_lt d.scale_le) := by
  obtain ⟨negative, magnitude, scale, hm, hs⟩ := d
  obtain ⟨ds, whole, value, -⟩ := exists_digits_toDigits (magnitude / 10 ^ scale)
  unfold chars
  dsimp only
  by_cases none : scale = 0
  · subst none
    have same : digitsValue ds = magnitude := by rw [value, Nat.pow_zero, Nat.div_one]
    subst same
    rw [if_pos rfl, List.append_nil, readPlain_whole whole Nat.toDigits_ne_nil hm]
  · obtain ⟨es, fraction, length, rest⟩ := exists_digits_lastDigits scale magnitude
    subst length
    have same : digitsValue (ds ++ es) = magnitude := by
      rw [digitsValue_append_list, value, rest, Nat.div_add_mod']
    subst same
    rw [if_neg none, readPlain_point whole fraction Nat.toDigits_ne_nil hm hs]

theorem read_chars (d : Decimal) : read d.chars = .ok d.reread := by
  unfold read
  rw [readPlain_chars]
  rfl

theorem ofText?_text (d : Decimal) : ofText? d.text = some d.reread := by
  unfold ofText? text
  rw [String.toList_ofList, read_chars]
  rfl

/-! ## Amounts that are read back as they are -/

theorem reread_eq_self_iff {d : Decimal} :
    d.reread = d ↔ (d.negative = true → d.magnitude ≠ 0) := by
  obtain ⟨negative, magnitude, scale, hm, hs⟩ := d
  cases negative <;> simp [reread, ofParts]

theorem reread_ofCoefficient (c : ℤ) (scale : ℕ) (hc : c.natAbs < bound) (hs : scale ≤ 28) :
    (ofCoefficient c scale hc hs).reread = ofCoefficient c scale hc hs := by
  refine reread_eq_self_iff.2 fun negative => ?_
  have below : c < 0 := of_decide_eq_true negative
  show c.natAbs ≠ 0
  omega

theorem reread_of_atScale? {q : ℚ} {scale : ℕ} {hs : scale ≤ 28} {d : Decimal}
    (h : atScale? q scale hs = some d) : d.reread = d := by
  obtain ⟨fits, ⟨⟩⟩ := Option.dite_none_right_eq_some.1 h
  exact reread_ofCoefficient ..

theorem reread_of_fromScale? {q : ℚ} {d : Decimal} : ∀ {scale : ℕ} {hs : scale ≤ 28},
    fromScale? q scale hs = some d → d.reread = d
  | 0, _, h => reread_of_atScale? h
  | scale + 1, _, h => by
    unfold fromScale? at h
    split at h
    · next found =>
      cases h
      exact reread_of_atScale? found
    · exact reread_of_fromScale? h

/-- An amount that rounding gives is read back as it is, for a zero among them has no sign. -/
theorem reread_of_nearest? {q : ℚ} {d : Decimal} (h : nearest? q = some d) : d.reread = d :=
  reread_of_fromScale? h

theorem reread_padZeros : ∀ (n : ℕ) {d : Decimal}, d.reread = d →
    (d.padZeros n).reread = d.padZeros n
  | 0, _, h => h
  | n + 1, d, h => by
    unfold padZeros
    split
    · refine reread_padZeros n (reread_eq_self_iff.2 fun negative => ?_)
      exact Nat.mul_ne_zero (reread_eq_self_iff.1 h negative) (by decide)
    · exact h

/-- So is the figure of such an amount. -/
theorem reread_toCents {d : Decimal} (h : d.reread = d) : d.toCents.reread = d.toCents := by
  refine reread_padZeros _ ?_
  unfold toPlaces
  split
  · exact h
  · rw [reread_eq_self_iff] at h ⊢
    simp only [Bool.and_eq_true, Bool.or_eq_true, beq_iff_eq, bne_iff_ne]
    rintro ⟨negative, rounded⟩
    exact rounded.resolve_left (h negative)

/-! ## Blanks around an amount -/

/-- The characters of plain text: digits, the sign and the point. -/
def IsPlain (c : Char) : Prop :=
  (∃ n, digit? c = some n) ∨ c = '-' ∨ c = '.'

theorem isPlain_of_digits {cs : List Char} {ds : List ℕ} (h : cs.map digit? = ds.map some) :
    ∀ c ∈ cs, IsPlain c :=
  fun _ hc => .inl (exists_digit_of_mem h hc)

theorem isPlain_of_mem_sign {negative : Bool} :
    ∀ c ∈ (if negative then ['-'] else []), IsPlain c := by
  intro c hc
  cases negative with
  | true => exact .inr (.inl (List.mem_singleton.1 hc))
  | false => cases hc

theorem isPlain_of_mem_chars (d : Decimal) : ∀ c ∈ d.chars, IsPlain c := by
  obtain ⟨negative, magnitude, scale, hm, hs⟩ := d
  obtain ⟨ds, whole, -⟩ := exists_digits_toDigits (magnitude / 10 ^ scale)
  obtain ⟨es, fraction, -⟩ := exists_digits_lastDigits scale magnitude
  intro c h
  unfold chars at h
  rcases List.mem_append.1 h with front | later
  · rcases List.mem_append.1 front with sign | digit
    · exact isPlain_of_mem_sign c sign
    · exact isPlain_of_digits whole c digit
  · split at later
    · cases later
    · rcases List.mem_cons.1 later with rfl | digit
      · exact .inr (.inr rfl)
      · exact isPlain_of_digits fraction c digit

theorem isBlank_of_isPlain {c : Char} (h : IsPlain c) : Text.isBlank c = false := by
  rcases h with ⟨n, digit⟩ | rfl | rfl
  · unfold digit? at digit
    split at digit
    · next range =>
      have low : 48 ≤ c.toNat := range.1
      have high : c.toNat ≤ 57 := range.2
      simp only [Text.isBlank, Bool.or_eq_false_iff, Bool.and_eq_false_iff,
        decide_eq_false_iff_not, beq_eq_false_iff_ne]
      omega
    · cases digit
  · rfl
  · rfl

/-- Plain text has no blanks to be trimmed. -/
theorem ofText?_trim {cs : List Char} (plain : ∀ c ∈ cs, IsPlain c) :
    ofText? (Text.trim (String.ofList cs)) = (read cs).toOption := by
  have trimmed : Text.IsTrimmed cs := by
    constructor
    · intro c hc
      exact isBlank_of_isPlain (plain c (List.mem_of_mem_head? hc))
    · intro c hc
      exact isBlank_of_isPlain (plain c (List.mem_of_mem_getLast? hc))
  unfold Text.trim ofText?
  rw [String.toList_ofList, String.toList_ofList, Text.trimChars_of_isTrimmed trimmed]

theorem ofText?_trim_text (d : Decimal) : ofText? (Text.trim d.text) = some d.reread := by
  unfold text
  rw [ofText?_trim d.isPlain_of_mem_chars, read_chars]
  rfl

/-! ## Amounts that are read -/

/-- What is read has the value of its parts. -/
theorem toRat_ofParts (negative : Bool) (magnitude scale : ℕ) (hm : magnitude < bound)
    (hs : scale ≤ 28) : (ofParts negative magnitude scale hm hs).toRat =
      (if negative then -(magnitude : ℚ) else magnitude) / 10 ^ scale := by
  unfold ofParts
  rw [toRat_mk]
  by_cases zero : magnitude = 0 <;> cases negative <;> simp [zero]

theorem toRat_reread (d : Decimal) : d.reread.toRat = d.toRat := by
  unfold reread
  rw [toRat_ofParts, ← toRat_mk d.negative d.magnitude d.scale d.magnitude_lt d.scale_le]

/-- What is read is an amount of the given sign and magnitude. -/
def ReadsAs (negative : Bool) (q : ℚ) (result : Except ReadError Decimal) : Prop :=
  ∃ d, result = .ok d ∧ d.toRat = if negative then -q else q

section ReadsAs

variable {negative : Bool} {magnitude scale : ℕ} {q : ℚ}

theorem readsAs_ofParts (hm : magnitude < bound) (hs : scale ≤ 28)
    (value : (magnitude : ℚ) * (10 : ℚ) ^ (-(scale : ℤ)) = q) :
    ReadsAs negative q (.ok (ofParts negative magnitude scale hm hs)) := by
  have quotient : (magnitude : ℚ) / 10 ^ scale = q := by
    rw [← value, zpow_neg, zpow_natCast, div_eq_mul_inv]
  refine ⟨_, rfl, ?_⟩
  rw [toRat_ofParts, ← quotient]
  cases negative
  · rfl
  · exact neg_div _ _

/-- What the plain form is read as counts. -/
theorem ReadsAs.read {text : List Char} (h : ReadsAs negative q (readPlain text)) :
    ReadsAs negative q (Decimal.read text) := by
  obtain ⟨d, plain, value⟩ := h
  refine ⟨d, ?_, value⟩
  unfold Decimal.read
  rw [plain]

theorem readsAs_point {w f : List Char} {ds es : List ℕ} {m : ℕ} (hw : w.map digit? = ds.map some)
    (hf : f.map digit? = es.map some) (some_digit : w ≠ []) (short : es.length ≤ 28)
    (spelled : digitsValue (ds ++ es) = m) (fits : m < bound)
    (value : (m : ℚ) * (10 : ℚ) ^ (-(es.length : ℤ)) = q) (negative : Bool) :
    ReadsAs negative q (readPlain ((if negative then ['-'] else []) ++ (w ++ '.' :: f))) := by
  subst spelled
  rw [← List.append_assoc, readPlain_point hw hf some_digit fits short]
  exact readsAs_ofParts fits short value

theorem readsAs_whole {w : List Char} {ds : List ℕ} (hw : w.map digit? = ds.map some)
    (some_digit : w ≠ []) (fits : digitsValue ds < bound) (negative : Bool) :
    ReadsAs negative (digitsValue ds) (readPlain ((if negative then ['-'] else []) ++ w)) := by
  rw [readPlain_whole hw some_digit fits]
  exact readsAs_ofParts fits (Nat.zero_le 28) (by rw [Nat.cast_zero, neg_zero, zpow_zero, mul_one])

end ReadsAs

end Backtest.Decimal
