/-
Tokens of printed JSON. Each printed token is scanned up to its end: a text in quotes up to the
closing one, and a number or word up to what may follow a value.
-/
import Backtest.Json.Printer
import Backtest.Json.Token
import Backtest.Proofs.Digits

namespace Backtest

/-- Whether the number is a whole one of 64 bits, with or without a sign. -/
def JsonNumber.FitsWord : JsonNumber → Prop
  | .whole n => -9223372036854775808 ≤ n ∧ n ≤ 18446744073709551615
  | .double _ => False

theorem JsonNumber.chars_whole (n : Int) :
    (JsonNumber.whole n).chars = (if decide (n < 0) then ['-'] else []) ++ Nat.toDigits 10 n.natAbs := by
  unfold chars
  by_cases below : n < 0 <;> simp [below]

namespace JsonToken

open Json (escape hexDigit)

/-! ## Texts -/

theorem hexValue?_hexDigit : ∀ d < 16, hexValue? (hexDigit d) = some d := by
  decide

/-- A control character is scanned from its escape of four digits. -/
theorem unit?_control {c : Char} (h : c < ' ') :
    unit? '0' '0' (hexDigit (c.toNat / 16)) (hexDigit (c.toNat % 16)) = some c.toNat := by
  have small : c.toNat < 32 := h
  unfold unit?
  rw [hexValue?_hexDigit _ (by omega), hexValue?_hexDigit _ (by omega)]
  show some (((0 * 16 + 0) * 16 + c.toNat / 16) * 16 + c.toNat % 16) = some c.toNat
  congr 1
  omega

/-- An escape of one letter is scanned as the character that it stands for. -/
theorem scanText_letter {e c : Char} (h : escape? e = some c) (rest read : List Char) :
    scanText ('\\' :: e :: rest) read none = scanText rest (c :: read) none := by
  have letter : e ≠ 'u' := by
    rintro rfl
    simp [escape?] at h
  rw [scanText]
  · simp [h]
  · exact fun _ _ _ _ _ e' => absurd e' letter
  · exact letter

theorem scanText_control {c : Char} (h : c < ' ') (rest read : List Char) :
    scanText ('\\' :: 'u' :: '0' :: '0' ::
      hexDigit (c.toNat / 16) :: hexDigit (c.toNat % 16) :: rest) read none =
        scanText rest (c :: read) none := by
  have small : c.toNat < 32 := h
  have low : isLow c.toNat = false := by simp [isLow]; omega
  have high : isHigh c.toNat = false := by simp [isHigh]; omega
  rw [scanText]
  simp [unit?_control h, low, high, Char.ofNat_toNat]

/-- The escaped form of a character is scanned as the character. -/
theorem scanText_escape (c : Char) (rest read : List Char) :
    scanText (escape c ++ rest) read none = scanText rest (c :: read) none := by
  unfold escape
  split_ifs with quote backslash back form line carriage tab control
  · subst quote
    exact scanText_letter rfl rest read
  · subst backslash
    exact scanText_letter rfl rest read
  · subst back
    exact scanText_letter rfl rest read
  · subst form
    exact scanText_letter rfl rest read
  · subst line
    exact scanText_letter rfl rest read
  · subst carriage
    exact scanText_letter rfl rest read
  · subst tab
    exact scanText_letter rfl rest read
  · exact scanText_control control rest read
  · rw [List.singleton_append, scanText.eq_def]
    simp [quote, backslash, control]

theorem scanText_escaped (rest : List Char) : ∀ text read : List Char,
    scanText (text.flatMap escape ++ '"' :: rest) read none =
      (.text (String.ofList (read.reverse ++ text)), rest)
  | [], read => by
    rw [List.flatMap_nil, List.nil_append, scanText.eq_def, List.append_nil]
    rfl
  | c :: cs, read => by
    rw [List.flatMap_cons, List.append_assoc, scanText_escape, scanText_escaped rest cs,
      List.reverse_cons, List.append_assoc, List.singleton_append]

end JsonToken

/-! ## Numbers -/

namespace NumberParts

theorem le_foldl_digits : ∀ (ds : List Nat) (s : Nat),
    s ≤ ds.foldl (fun n d => 10 * n + d) s
  | [], _ => Nat.le_refl _
  | d :: ds, s => Nat.le_trans (by omega) (le_foldl_digits ds (10 * s + d))

/-- All digits are taken up where the number that they make stays below the bound. -/
theorem absorb_of_lt : ∀ (ds : List Nat) (s : Nat),
    ds.foldl (fun n d => 10 * n + d) s < wordBound →
      absorb s ds = (ds.foldl (fun n d => 10 * n + d) s, [])
  | [], _, _ => rfl
  | d :: ds, s, h => by
    rw [List.foldl_cons] at h ⊢
    have taken := Nat.lt_of_le_of_lt (le_foldl_digits ds (10 * s + d)) h
    rw [absorb, Nat.mul_comm s 10, if_pos taken]
    exact absorb_of_lt ds (10 * s + d) h

/-- Digits without a point or an exponent are a whole number if it fits 64 bits; of those below zero
the least is `-2 ^ 63`. -/
theorem value_of_digits {negative : Bool} {ds : List Nat} (small : digitsValue ds < wordBound)
    (h : negative = true → digitsValue ds ≠ 0 ∧ 2 * digitsValue ds ≤ wordBound) :
    value ⟨negative, ds, [], none⟩ =
      .ok (.whole (if negative then -(digitsValue ds : Int) else digitsValue ds)) := by
  have absorbed : absorb 0 ds = (digitsValue ds, []) := absorb_of_lt ds 0 small
  unfold value
  dsimp only
  rw [absorbed]
  rcases negative with _ | _
  · rfl
  · obtain ⟨pos, half⟩ := h rfl
    simp [pos, Nat.not_lt.2 half]

end NumberParts

namespace JsonToken

/-- A text after which a number or word has ended. -/
def Ends (rest : List Char) : Prop :=
  ∀ c ∈ rest.head?, c = ',' ∨ c = ']' ∨ c = '\x7d' ∨ c = '\n'

theorem scanExponent_of_ends {rest : List Char} (h : Ends rest) (parts : NumberParts) :
    scanExponent parts rest = finishNumber parts rest := by
  rcases rest with _ | ⟨c, rest⟩
  · rfl
  · unfold scanExponent
    rcases h c rfl with rfl | rfl | rfl | rfl <;> rfl

section Digits

variable {negative : Bool} {w f rest : List Char} {ds es : List Nat}

/-- Digits without a point are scanned up to their end. -/
theorem scanNumber_whole (h : Ends rest) (hw : w.map digit? = ds.map some) (front : LeadingDigits ds) :
    scanNumber negative (w ++ rest) = finishNumber ⟨negative, ds, [], none⟩ rest := by
  have after : ∀ c ∈ rest.head?, digit? c = none := by
    intro c hc
    rcases h c hc with rfl | rfl | rfl | rfl <;> rfl
  have point : ∀ rest', rest = '.' :: rest' → False := by
    rintro rest' rfl
    rcases h '.' rfl with e | e | e | e <;> cases e
  rw [← scanExponent_of_ends h]
  unfold scanNumber
  rw [spanDigits_append after hw]
  rcases front with rfl | ⟨d, later, rfl, pos⟩
  · split
    · next e => cases e
    · next e => cases e
    · next e => exact (point _ (Prod.mk.inj e).2).elim
    · next e => cases e; rfl
  · split
    · next e => cases e
    · next e => cases e; exact absurd rfl pos
    · next e => exact (point _ (Prod.mk.inj e).2).elim
    · next e => cases e; rfl

/-- So are digits with a point among them. -/
theorem scanNumber_point (h : Ends rest) (hw : w.map digit? = ds.map some)
    (hf : f.map digit? = es.map some) (front : LeadingDigits ds) (some_digit : es ≠ []) :
    scanNumber negative (w ++ '.' :: (f ++ rest)) = finishNumber ⟨negative, ds, es, none⟩ rest := by
  have after : ∀ c ∈ rest.head?, digit? c = none := by
    intro c hc
    rcases h c hc with rfl | rfl | rfl | rfl <;> rfl
  have point : ∀ c ∈ ('.' :: (f ++ rest)).head?, digit? c = none := by
    intro c hc
    cases hc
    rfl
  obtain ⟨e, later, rfl⟩ := List.exists_cons_of_ne_nil some_digit
  have fraction : spanDigits (f ++ rest) = (e :: later, rest) := spanDigits_append after hf
  rw [← scanExponent_of_ends h]
  unfold scanNumber
  rw [spanDigits_append point hw]
  rcases front with rfl | ⟨d, more, rfl, pos⟩
  · simp only [fraction]
  · split
    · next e => cases e
    · next e => cases e; exact absurd rfl pos
    · next e =>
      cases e
      simp only [fraction]
    · next other e => exact (other _ (Prod.mk.inj e).2.symm).elim

end Digits

/-- The digits of a number are scanned as that number. -/
theorem scanNumber_digits {n : Nat} {negative : Bool} {rest : List Char} (h : Ends rest)
    (small : n < NumberParts.wordBound)
    (half : negative = true → n ≠ 0 ∧ 2 * n ≤ NumberParts.wordBound) :
    scanNumber negative (Nat.toDigits 10 n ++ rest) =
      (.number (.whole (if negative then -(n : Int) else n)), rest) := by
  obtain ⟨ds, digits, rfl, front⟩ := exists_digits_toDigits n
  rw [scanNumber_whole h digits front]
  unfold finishNumber
  rw [NumberParts.value_of_digits small half]

theorem scan_digit {c : Char} (h : c.isDigit = true) (rest : List Char) :
    scan c rest = scanNumber false (c :: rest) := by
  unfold scan
  split
  case h_12 => rw [if_pos h]
  all_goals cases h

/-! ## Tokens -/

/-- A token that is scanned is the first one, and those of the rest come after it. -/
theorem tokens_cons {c : Char} {rest after : List Char} {token : JsonToken}
    (visible : isBlank c = false) (h : scan c rest = (token, after)) :
    tokens (c :: rest) = token :: tokens after := by
  rw [tokens, visible, h]
  rfl

theorem tokens_quote (s : String) (rest : List Char) :
    tokens (Json.quote s ++ rest) = .text s :: tokens rest := by
  unfold Json.quote
  rw [List.cons_append, List.cons_append, List.append_assoc, List.singleton_append]
  refine tokens_cons rfl ?_
  show scanText _ [] none = _
  rw [scanText_escaped, List.reverse_nil, List.nil_append, String.ofList_toList]

/-- A number is a token from its sign on. -/
theorem tokens_signed {negative : Bool} {c : Char} {d : Nat} (digit : digit? c = some d)
    {rest after : List Char} {token : JsonToken} (h : scanNumber negative (c :: rest) = (token, after)) :
    tokens ((if negative then ['-'] else []) ++ c :: rest) = token :: tokens after := by
  cases negative with
  | true => exact tokens_cons rfl h
  | false =>
    have isDigit : c.isDigit = true := by
      unfold digit? at digit
      split at digit
      · next range =>
        unfold Char.isDigit
        simp only [Bool.and_eq_true, decide_eq_true_eq]
        exact range
      · cases digit
    have visible : isBlank c = false := by
      unfold isBlank
      simp only [Bool.or_eq_false_iff, beq_eq_false_iff_ne]
      refine ⟨⟨⟨?_, ?_⟩, ?_⟩, ?_⟩ <;> rintro rfl <;> cases isDigit
    exact tokens_cons visible ((scan_digit isDigit rest).trans h)

/-- A whole number of 64 bits is scanned from its digits. -/
theorem tokens_number {n : JsonNumber} {rest : List Char} (h : Ends rest) (fits : n.FitsWord) :
    tokens (n.chars ++ rest) = .number n :: tokens rest := by
  cases n with
  | double x => exact fits.elim
  | whole n =>
    obtain ⟨least, greatest⟩ := fits
    obtain ⟨ds, digits, -⟩ := exists_digits_toDigits n.natAbs
    have bound : n.natAbs < NumberParts.wordBound := by
      unfold NumberParts.wordBound
      omega
    have half : n < 0 → n.natAbs ≠ 0 ∧ 2 * n.natAbs ≤ NumberParts.wordBound := by
      unfold NumberParts.wordBound
      omega
    have value : (if decide (n < 0) then -(n.natAbs : Int) else n.natAbs) = n := by
      simp only [decide_eq_true_eq]
      split <;> omega
    have scanned : scanNumber (decide (n < 0)) (Nat.toDigits 10 n.natAbs ++ rest) =
        (.number (.whole n), rest) := by
      rw [scanNumber_digits h bound fun below => half (of_decide_eq_true below), value]
    rw [JsonNumber.chars_whole, List.append_assoc]
    rcases hd : Nat.toDigits 10 n.natAbs with _ | ⟨c, cs⟩
    · exact absurd hd Nat.toDigits_ne_nil
    rw [hd] at digits scanned
    rcases ds with _ | ⟨d, later⟩
    · cases digits
    · exact tokens_signed (List.cons.inj digits).1 scanned

end JsonToken
end Backtest
