/-
Amounts that are written as JSON numbers. As a text, an amount is read digit by digit, and is exactly
what is written (`PlainNumber.readsAs_chars`). As a number, it is kept as a whole number of 64 bits or
as a floating-point number, of which the shortest text is read: that is what is written if the
number is whole and fits, or has at most fifteen digits (`PlainNumber.IsKept`). A longer one may be
rounded when it is kept.
-/
import Backtest.Proofs.Json.Number
import Backtest.Proofs.Json.Text
import Backtest.Proofs.Rule.Grammar

namespace Backtest

-- The power of naturals is the one of the core library in every context.
attribute [local instance (high)] instPowNat

/-! ## Plain numbers -/

/-- A number as it is written without an exponent: whether it has a minus sign, its digits before the
point, of which a zero in front stands alone, and those after the point, if there is one. -/
structure PlainNumber where
  negative : Bool
  whole : List (Fin 10)
  fraction : List (Fin 10)
  leading : LeadingDigits (whole.map Fin.val)

namespace PlainNumber

/-- The characters of digits. -/
def digitChars (ds : List (Fin 10)) : List Char :=
  ds.map fun d => Nat.digitChar d.val

def chars (p : PlainNumber) : List Char :=
  (if p.negative then ['-'] else []) ++
    (digitChars p.whole ++ if p.fraction = [] then [] else '.' :: digitChars p.fraction)

def text (p : PlainNumber) : String :=
  String.ofList p.chars

/-- The number that the digits spell, without the point. -/
def coefficient (p : PlainNumber) : ℕ :=
  digitsValue (p.whole.map Fin.val ++ p.fraction.map Fin.val)

def magnitude (p : PlainNumber) : ℚ :=
  (p.coefficient : ℚ) * (10 : ℚ) ^ (-(p.fraction.length : ℤ))

def value (p : PlainNumber) : ℚ :=
  if p.negative then -p.magnitude else p.magnitude

/-- The number is exactly an amount. -/
def IsAmount (p : PlainNumber) : Prop :=
  p.fraction.length ≤ 28 ∧ p.coefficient < Decimal.bound

/-- The number is kept as it is written: it is whole and fits 64 bits, or it has fifteen digits at
most, of which 22 at most stand after the point. -/
def IsKept (p : PlainNumber) : Prop :=
  (p.fraction = [] ∧ p.coefficient < 2 ^ 64 ∧
    (p.negative = true → 0 < p.coefficient ∧ p.coefficient ≤ 2 ^ 63)) ∨
  (p.coefficient < 10 ^ 15 ∧ p.fraction.length ≤ 22)

variable {p : PlainNumber}

theorem map_digit?_digitChars (ds : List (Fin 10)) :
    (digitChars ds).map digit? = (ds.map Fin.val).map some := by
  unfold digitChars
  rw [List.map_map, List.map_map]
  exact List.map_congr_left fun d _ => digit?_digitChar d.val d.isLt

/-- There is a digit before the point. -/
theorem exists_first (p : PlainNumber) : ∃ d later, p.whole = d :: later := by
  rcases hw : p.whole with _ | ⟨d, later⟩
  · have leading := p.leading
    rw [hw] at leading
    rcases leading with e | ⟨_, _, e, -⟩ <;> cases e
  · exact ⟨d, later, rfl⟩

theorem digitChars_whole_ne_nil (p : PlainNumber) : digitChars p.whole ≠ [] := by
  obtain ⟨d, later, e⟩ := p.exists_first
  rw [e]
  exact List.cons_ne_nil _ _

theorem coefficient_of_whole (h : p.fraction = []) :
    p.coefficient = digitsValue (p.whole.map Fin.val) ∧ p.magnitude = p.coefficient := by
  unfold magnitude coefficient
  rw [h]
  simp

/-! ## The text -/

/-- The characters of a number are read as they stand. -/
theorem readsAs_chars (h : p.IsAmount) :
    Decimal.ReadsAs p.negative p.magnitude (Decimal.read p.chars) := by
  obtain ⟨short, fits⟩ := h
  refine Decimal.ReadsAs.read ?_
  unfold chars
  by_cases unbroken : p.fraction = []
  · obtain ⟨coefficient, magnitude⟩ := coefficient_of_whole unbroken
    rw [coefficient] at fits magnitude
    rw [if_pos unbroken, List.append_nil, magnitude]
    exact Decimal.readsAs_whole (map_digit?_digitChars _) p.digitChars_whole_ne_nil fits _
  · rw [if_neg unbroken]
    refine Decimal.readsAs_point (map_digit?_digitChars _) (map_digit?_digitChars _)
      p.digitChars_whole_ne_nil (by rwa [List.length_map]) rfl fits ?_ _
    rw [List.length_map]
    rfl

theorem isPlain_of_mem_chars (p : PlainNumber) : ∀ c ∈ p.chars, Decimal.IsPlain c := by
  intro c hc
  rcases List.mem_append.1 hc with sign | digits
  · exact Decimal.isPlain_of_mem_sign c sign
  · rcases List.mem_append.1 digits with whole | later
    · exact Decimal.isPlain_of_digits (map_digit?_digitChars _) c whole
    · split at later
      · cases later
      · rcases List.mem_cons.1 later with rfl | fraction
        · exact .inr (.inr rfl)
        · exact Decimal.isPlain_of_digits (map_digit?_digitChars _) c fraction

/-- The text of a number is the amount that is written. -/
theorem exists_ofText? (h : p.IsAmount) :
    ∃ d, Decimal.ofText? (Text.trim p.text) = some d ∧ d.toRat = p.value := by
  obtain ⟨d, read, value⟩ := readsAs_chars h
  refine ⟨d, ?_, value⟩
  unfold text
  rw [Decimal.ofText?_trim p.isPlain_of_mem_chars, read]
  rfl

/-! ## The number -/

/-- The parts of the number, as they are taken from a JSON text. -/
def parts (p : PlainNumber) : NumberParts :=
  ⟨p.negative, p.whole.map Fin.val, p.fraction.map Fin.val, none⟩

theorem tokens_chars {n : JsonNumber} (h : p.parts.value = .ok n) :
    JsonToken.tokens p.chars = [.number n] := by
  have finished : JsonToken.finishNumber p.parts [] = (.number n, []) := by
    unfold JsonToken.finishNumber
    rw [h]
  have ends : JsonToken.Ends [] := nofun
  obtain ⟨d, later, whole⟩ := p.exists_first
  have scanned : JsonToken.scanNumber p.negative (digitChars p.whole ++
      if p.fraction = [] then [] else '.' :: digitChars p.fraction) = (.number n, []) := by
    rw [← finished]
    by_cases unbroken : p.fraction = []
    · rw [if_pos unbroken, JsonToken.scanNumber_whole ends (map_digit?_digitChars _) p.leading]
      unfold parts
      rw [unbroken]
      rfl
    · rw [if_neg unbroken, ← List.append_nil (digitChars p.fraction),
        JsonToken.scanNumber_point ends (map_digit?_digitChars _) (map_digit?_digitChars _) p.leading
          (by simpa using unbroken)]
      rfl
  unfold chars
  rw [whole] at scanned ⊢
  refine (JsonToken.tokens_signed (digit?_digitChar d.val d.isLt) scanned).trans ?_
  rw [JsonToken.tokens]

/-- The number is what a JSON text of nothing else is read as. -/
theorem ofText_text {n : JsonNumber} (h : p.parts.value = .ok n) :
    Json.ofText p.text = .ok (.number n) := by
  have reading : JsonDraft.ofText p.text = ⟨.number n, false⟩ := by
    unfold JsonDraft.ofText text
    rw [String.toList_ofList, tokens_chars h]
    rfl
  unfold Json.ofText
  rw [reading]
  rfl

/-- A whole number is kept as such if it fits. -/
theorem exists_number_of_whole (unbroken : p.fraction = []) (small : p.coefficient < 2 ^ 64)
    (half : p.negative = true → 0 < p.coefficient ∧ p.coefficient ≤ 2 ^ 63) :
    ∃ n, p.parts.value = .ok n ∧
      Decimal.ReadsAs p.negative p.magnitude (Decimal.read n.chars) := by
  obtain ⟨coefficient, magnitude⟩ := coefficient_of_whole unbroken
  obtain ⟨ds, spelled, value, -⟩ := exists_digits_toDigits p.coefficient
  have kept : p.parts.value =
      .ok (.whole (if p.negative then -(p.coefficient : ℤ) else p.coefficient)) := by
    unfold parts
    rw [coefficient] at small half ⊢
    rw [unbroken]
    refine NumberParts.value_of_digits small fun negative => ?_
    have half := half negative
    unfold NumberParts.wordBound
    omega
  have shown : (JsonNumber.whole (if p.negative then -(p.coefficient : ℤ) else p.coefficient)).chars =
      (if p.negative then ['-'] else []) ++ Nat.toDigits 10 p.coefficient := by
    rw [JsonNumber.chars_whole]
    cases negative : p.negative with
    | true =>
      have pos := (half negative).1
      simp [pos]
    | false => simp
  have fits : digitsValue ds < Decimal.bound := by
    rw [value]
    exact lt_trans small (by decide)
  have read := Decimal.readsAs_whole spelled Nat.toDigits_ne_nil fits p.negative
  rw [value] at read
  refine ⟨_, kept, ?_⟩
  rw [shown, magnitude]
  exact read.read

/-- A number with a point is kept as a floating-point one, and so is zero with a sign. -/
theorem value_eq_double (h : p.fraction ≠ [] ∨ p.negative = true ∧ p.coefficient = 0) :
    p.parts.value = p.parts.double := by
  unfold parts at *
  rcases hf : p.fraction with _ | ⟨e, es⟩
  · obtain ⟨negative, zero⟩ := h.resolve_left (not_not_intro hf)
    rw [(coefficient_of_whole hf).1] at zero
    have taken : NumberParts.absorb 0 (p.whole.map Fin.val) = (0, []) := by
      have word : (0 : ℕ) < NumberParts.wordBound := by decide
      rw [NumberParts.absorb_of_lt _ 0 (by rw [← zero] at word; exact word)]
      exact congrArg (·, []) zero
    unfold NumberParts.value
    simp [negative, taken]
  · rfl

/-- A number that is kept as it is written is read from its own text as it is written. -/
theorem exists_number (h : p.IsKept) : ∃ n, p.parts.value = .ok n ∧
    Decimal.ReadsAs p.negative p.magnitude (Decimal.read n.chars) := by
  rcases h with ⟨unbroken, small, half⟩ | ⟨few, places⟩
  · exact exists_number_of_whole unbroken small half
  · by_cases whole : p.fraction = [] ∧ (p.negative = true → 0 < p.coefficient)
    · exact exists_number_of_whole whole.1 (by omega) fun negative => ⟨whole.2 negative, by omega⟩
    · have broken : p.fraction ≠ [] ∨ p.negative = true ∧ p.coefficient = 0 := by
        rw [not_and_or, Classical.not_imp, Nat.not_lt, Nat.le_zero] at whole
        exact whole
      obtain ⟨x, double, read⟩ := NumberParts.exists_double p.negative few
        (by rw [List.length_map]; omega)
      refine ⟨.double x, (value_eq_double broken).trans double, ?_⟩
      rw [List.length_map] at read
      exact read

theorem isAmount_of_isKept (h : p.IsKept) : p.IsAmount := by
  have room : 2 ^ 64 ≤ Decimal.bound ∧ 10 ^ 15 ≤ Decimal.bound := by decide
  rcases h with ⟨unbroken, small, -⟩ | ⟨few, places⟩
  · refine ⟨?_, lt_of_lt_of_le small room.1⟩
    rw [unbroken]
    exact Nat.zero_le 28
  · exact ⟨by omega, lt_of_lt_of_le few room.2⟩

end PlainNumber

/-! ## Conditions -/

namespace Condition

section Amount

variable {c : ConditionDefinition} {i : Indicator} {o : Operator}
  (left : Indicator.ofDefinition c.left.kind c.left.params = .ok i)
  (operator : Operator.ofText c.operator = .ok o) (level : o.isCross = false)
  (type : Text.name c.operandType = "VALUE")

include left operator level type

theorem ofDefinition_of_amount {value : Json} {d : Decimal} (read : readLiteral (some value) = .ok d) :
    ofDefinition { c with operandValue := some value } = .ok ⟨i, o, .constant d⟩ := by
  have right : Operand.ofDefinition { c with operandValue := some value } = .ok (.constant d) := by
    unfold Operand.ofDefinition
    simp only [type, if_true, read]
    rfl
  unfold ofDefinition
  rw [right]
  simp only [left, operator, bind, Except.bind, level]
  rfl

/-- A comparison with a number that is written as a text is one with exactly that amount. It may be
written as a JSON number as well if it is whole and fits 64 bits, or has at most fifteen digits. -/
theorem ofDefinition_of_plainNumber (p : PlainNumber) :
    (p.IsAmount → ∃ d, ofDefinition { c with operandValue := some (.text p.text) } =
      .ok ⟨i, o, .constant d⟩ ∧ d.toRat = p.value) ∧
    (p.IsKept → p.IsAmount ∧ ∃ n d, Json.ofText p.text = .ok (.number n) ∧
      ofDefinition { c with operandValue := some (.number n) } = .ok ⟨i, o, .constant d⟩ ∧
      d.toRat = p.value) := by
  constructor
  · intro amount
    obtain ⟨d, read, value⟩ := PlainNumber.exists_ofText? amount
    exact ⟨d, ofDefinition_of_amount left operator level type
      (readLiteral_of_amountText rfl read), value⟩
  · intro kept
    obtain ⟨n, taken, d, read, value⟩ := PlainNumber.exists_number kept
    have text : Decimal.ofText? (String.ofList n.chars) = some d := by
      unfold Decimal.ofText?
      rw [String.toList_ofList, read]
      rfl
    exact ⟨PlainNumber.isAmount_of_isKept kept, n, d, PlainNumber.ofText_text taken,
      ofDefinition_of_amount left operator level type (readLiteral_of_amountText rfl text), value⟩

end Amount

/-- Minus a hundred and a quarter. -/
theorem ofDefinition_of_plainNumber_below_zero :
    let p : PlainNumber := ⟨true, [1, 0, 0], [2, 5], .inr ⟨1, [0, 0], rfl, by decide⟩⟩
    let c : ConditionDefinition := ⟨⟨"price", []⟩, "less_than", "value", none, []⟩
    p.text = "-100.25" ∧
      (∃ d, ofDefinition { c with operandValue := some (.text p.text) } =
        .ok ⟨.price, .lessThan, .constant d⟩ ∧ d.toRat = p.value) ∧
      ∃ n d, Json.ofText p.text = .ok (.number n) ∧
        ofDefinition { c with operandValue := some (.number n) } =
          .ok ⟨.price, .lessThan, .constant d⟩ ∧ d.toRat = p.value := by
  intro p c
  have left : Indicator.ofDefinition c.left.kind c.left.params = .ok .price :=
    Indicator.ofDefinition_of_denoted (.price (by decide +kernel))
  have operator : Operator.ofText c.operator = .ok .lessThan :=
    Operator.ofText_of_name (by decide +kernel)
  have type : Text.name c.operandType = "VALUE" := by decide +kernel
  have kept : p.IsKept := .inr ⟨by decide +kernel, by decide +kernel⟩
  obtain ⟨as_text, as_number⟩ := ofDefinition_of_plainNumber left operator rfl type p
  obtain ⟨amount, number⟩ := as_number kept
  exact ⟨by decide +kernel, as_text amount, number⟩

/-- Of nineteen digits the last ones are lost where they are written as a JSON number. -/
theorem ofDefinition_rounds_long_number :
    let kept : JsonNumber :=
      .double ⟨false, 8895999183877727, -56, by decide, by decide, by decide, .inl (by decide)⟩
    let c : ConditionDefinition := ⟨⟨"PRICE", []⟩, "GREATER_THAN", "VALUE", none, []⟩
    let rounded : Decimal := ⟨false, 12345678901234568, 17, by decide, by decide⟩
    let written : Decimal := ⟨false, 1234567890123456789, 19, by decide, by decide⟩
    (Json.ofText "0.1234567890123456789" = .ok (.number kept) ∧
      ofDefinition { c with operandValue := some (.number kept) } =
        .ok ⟨.price, .greaterThan, .constant rounded⟩ ∧
      ofDefinition { c with operandValue := some (.text "0.1234567890123456789") } =
        .ok ⟨.price, .greaterThan, .constant written⟩) ∧
      rounded.toRat ≠ written.toRat := by
  intro kept c rounded written
  have left : Indicator.ofDefinition c.left.kind c.left.params = .ok .price :=
    Indicator.ofDefinition_of_denoted (.price (by decide +kernel))
  have operator : Operator.ofText c.operator = .ok .greaterThan :=
    Operator.ofText_of_name (by decide +kernel)
  have type : Text.name c.operandType = "VALUE" := by decide +kernel
  let p : PlainNumber :=
    ⟨false, [0], [1, 2, 3, 4, 5, 6, 7, 8, 9, 0, 1, 2, 3, 4, 5, 6, 7, 8, 9], .inl rfl⟩
  have text : p.text = "0.1234567890123456789" := by decide +kernel
  have value : p.parts.value.toOption.map (fun n => n) = some kept := by decide +kernel
  obtain ⟨_, value, rfl⟩ := exists_of_toOption_map value
  refine ⟨⟨?_, ?_, ?_⟩, ?_⟩
  · rw [← text]
    exact PlainNumber.ofText_text value
  · have shown : Decimal.ofText? (String.ofList kept.chars) = some rounded := by decide +kernel
    exact ofDefinition_of_amount left operator rfl type (readLiteral_of_amountText rfl shown)
  · have shown : Decimal.ofText? (Text.trim "0.1234567890123456789") = some written := by
      decide +kernel
    exact ofDefinition_of_amount left operator rfl type (readLiteral_of_amountText rfl shown)
  · decide +kernel

end Condition
end Backtest
