/-
What the text of a rule says. The parts of a condition are words without blanks, so they can be cut
off the front of the text one after the other: where a word is followed by a blank or by nothing, the
word and what follows it are determined by the whole (`word_and_rest`). By induction over the
conditions a text belongs to one action and one list of conditions.
-/
import Backtest.Proofs.Decimal.Text
import Backtest.Rule.Basic

namespace Backtest

/-! ## Words -/

/-- The text has ended, or goes on with a blank. -/
def Pauses (rest : List Char) : Prop :=
  ∀ c ∈ rest.head?, c = ' '

theorem pauses_nil : Pauses [] := nofun

theorem pauses_blank (rest : List Char) : Pauses (' ' :: rest) := by
  rintro c ⟨⟩
  rfl

/-- A word ends where the text pauses. -/
theorem word_and_rest : ∀ {word word' rest rest' : List Char}, ' ' ∉ word → ' ' ∉ word' →
    Pauses rest → Pauses rest' → word ++ rest = word' ++ rest' → word = word' ∧ rest = rest'
  | [], [], _, _, _, _, _, _, h => ⟨rfl, h⟩
  | [], c :: word', _, _, _, whole, pause, _, h => by
    subst h
    cases pause c rfl
    exact absurd List.mem_cons_self whole
  | c :: word, [], _, _, whole, _, _, pause, h => by
    subst h
    cases pause c rfl
    exact absurd List.mem_cons_self whole
  | c :: word, c' :: word', _, _, whole, whole', pause, pause', h => by
    obtain ⟨first, later⟩ := List.cons.inj h
    obtain ⟨word_eq, rest_eq⟩ := word_and_rest (fun hb => whole (List.mem_cons_of_mem _ hb))
      (fun hb => whole' (List.mem_cons_of_mem _ hb)) pause pause' later
    exact ⟨by rw [first, word_eq], rest_eq⟩

theorem notMem_of_digits {c : Char} (other : digit? c = none) {cs : List Char} {ds : List ℕ}
    (h : cs.map digit? = ds.map some) : c ∉ cs := by
  intro mem
  obtain ⟨d, digit⟩ := exists_digit_of_mem h mem
  cases other.symm.trans digit

/-! ## Amounts -/

namespace Decimal

/-- Only an amount with a sign has one in its text. -/
theorem minus_mem_chars_iff (d : Decimal) : '-' ∈ d.chars ↔ d.negative = true := by
  obtain ⟨negative, magnitude, scale, hm, hs⟩ := d
  obtain ⟨ds, whole, -⟩ := exists_digits_toDigits (magnitude / 10 ^ scale)
  obtain ⟨es, fraction, -⟩ := exists_digits_lastDigits scale magnitude
  have before := notMem_of_digits (c := '-') rfl whole
  have after : '-' ∉ (if scale = 0 then [] else '.' :: lastDigits scale magnitude) := by
    split
    · exact List.not_mem_nil
    · simp [notMem_of_digits (c := '-') rfl fraction]
  unfold chars
  simp only [List.mem_append, before, after, or_false]
  cases negative <;> simp

/-- The text of an amount shows its sign, magnitude and scale. -/
theorem chars_injective : Function.Injective chars := by
  intro d d' h
  have parts := readPlain_chars d
  rw [h, readPlain_chars d'] at parts
  simp only [ofParts, Except.ok.injEq, Decimal.mk.injEq] at parts
  have sign : d.negative = d'.negative := by
    rw [Bool.eq_iff_iff, ← minus_mem_chars_iff, ← minus_mem_chars_iff, h]
  obtain ⟨negative, magnitude, scale, _, _⟩ := d
  obtain ⟨negative', magnitude', scale', _, _⟩ := d'
  obtain ⟨-, rfl, rfl⟩ := parts
  cases sign
  rfl

end Decimal

/-! ## Parts of a condition -/

theorem toDigits_injective : Function.Injective (Nat.toDigits 10) := by
  intro m n h
  rw [← Nat.ofDigitChars_ten_toDigits (n := m), h, Nat.ofDigitChars_ten_toDigits]

namespace Indicator

/-- An indicator with a period is shown by the letters of its kind and the period in brackets. -/
theorem chars_periodic (p : ℕ) :
    (sma p).chars = 'S' :: 'M' :: 'A' :: '(' :: (Nat.toDigits 10 p ++ [')']) ∧
    (ema p).chars = 'E' :: 'M' :: 'A' :: '(' :: (Nat.toDigits 10 p ++ [')']) ∧
    (rsi p).chars = 'R' :: 'S' :: 'I' :: '(' :: (Nat.toDigits 10 p ++ [')']) :=
  ⟨rfl, rfl, rfl⟩

theorem blank_notMem_chars (i : Indicator) : ' ' ∉ i.chars := by
  have period (p : ℕ) : ' ' ∉ Nat.toDigits 10 p := by
    obtain ⟨ds, digits, -⟩ := exists_digits_toDigits p
    exact notMem_of_digits rfl digits
  cases i with
  | price => decide
  | sma p => simp [(chars_periodic p).1, period p]
  | ema p => simp [(chars_periodic p).2.1, period p]
  | rsi p => simp [(chars_periodic p).2.2, period p]

/-- Indicators of different kinds or periods have different texts. -/
theorem chars_injective : Function.Injective chars := by
  have price : price.chars = ['P', 'R', 'I', 'C', 'E'] := rfl
  intro i j h
  cases i <;> cases j <;>
    simp only [price, (chars_periodic _).1, (chars_periodic _).2.1, (chars_periodic _).2.2] at h <;>
    simp_all [toDigits_injective.eq_iff]

theorem text_injective : Function.Injective text :=
  fun _ _ h => chars_injective (String.ofList_inj.1 h)

/-- The letter at the front tells an indicator from an amount. -/
theorem exists_not_isPlain (i : Indicator) : ∃ c ∈ i.chars, ¬ Decimal.IsPlain c := by
  have letters : ∀ c ∈ ['P', 'S', 'E', 'R'], ¬ Decimal.IsPlain c := by
    simp [Decimal.IsPlain, digit?]
  cases i with
  | price => exact ⟨'P', by decide, letters 'P' (by decide)⟩
  | sma p => exact ⟨'S', by simp [(chars_periodic p).1], letters 'S' (by decide)⟩
  | ema p => exact ⟨'E', by simp [(chars_periodic p).2.1], letters 'E' (by decide)⟩
  | rsi p => exact ⟨'R', by simp [(chars_periodic p).2.2], letters 'R' (by decide)⟩

end Indicator

namespace Operand

theorem blank_notMem_chars (o : Operand) : ' ' ∉ o.chars := by
  cases o with
  | constant d =>
    intro blank
    have plain := d.isPlain_of_mem_chars _ blank
    simp [Decimal.IsPlain, digit?] at plain
  | indicator i => exact i.blank_notMem_chars

theorem chars_injective : Function.Injective chars := by
  have differ (d : Decimal) (i : Indicator) : d.chars ≠ i.chars := by
    intro h
    obtain ⟨c, hc, letter⟩ := i.exists_not_isPlain
    exact letter (d.isPlain_of_mem_chars c (h ▸ hc))
  intro o o' h
  cases o with
  | constant d =>
    cases o' with
    | constant d' => exact congrArg constant (Decimal.chars_injective h)
    | indicator i => exact absurd h (differ d i)
  | indicator i =>
    cases o' with
    | constant d => exact absurd h.symm (differ d i)
    | indicator i' => exact congrArg indicator (Indicator.chars_injective h)

end Operand

namespace Operator

theorem blank_notMem_chars (o : Operator) : ' ' ∉ o.chars := by
  cases o <;> decide

theorem chars_injective : Function.Injective chars := by
  intro o o' h
  cases o <;> cases o' <;> first | rfl | exact absurd h (by decide)

end Operator

/-! ## Conditions and rules -/

namespace Condition

/-- A condition ends where the text pauses after its three words. -/
theorem eq_and_rest {c c' : Condition} {rest rest' : List Char} (pause : Pauses rest)
    (pause' : Pauses rest') (h : c.chars ++ rest = c'.chars ++ rest') : c = c' ∧ rest = rest' := by
  obtain ⟨left, operator, right⟩ := c
  obtain ⟨left', operator', right'⟩ := c'
  simp only [chars, List.append_assoc, List.cons_append] at h
  obtain ⟨first, h⟩ := word_and_rest left.blank_notMem_chars left'.blank_notMem_chars
    (pauses_blank _) (pauses_blank _) h
  obtain ⟨second, h⟩ := word_and_rest operator.blank_notMem_chars operator'.blank_notMem_chars
    (pauses_blank _) (pauses_blank _) (List.cons.inj h).2
  obtain ⟨third, after⟩ := word_and_rest right.blank_notMem_chars right'.blank_notMem_chars pause
    pause' (List.cons.inj h).2
  cases Indicator.chars_injective first
  cases Operator.chars_injective second
  cases Operand.chars_injective third
  exact ⟨rfl, after⟩

theorem blank_mem_chars (c : Condition) : ' ' ∈ c.chars := by
  simp [chars]

end Condition

namespace Rule

/-- What follows the first condition. -/
def laterChars : List Condition → List Char
  | [] => []
  | c :: rest => ' ' :: 'A' :: 'N' :: 'D' :: ' ' :: conditionChars (c :: rest)

theorem conditionChars_cons (c : Condition) (rest : List Condition) :
    conditionChars (c :: rest) = c.chars ++ laterChars rest := by
  cases rest with
  | nil => simp [conditionChars, laterChars]
  | cons d rest =>
    rw [conditionChars, List.append_assoc]
    rfl

theorem pauses_laterChars (rest : List Condition) : Pauses (laterChars rest) := by
  cases rest with
  | nil => exact pauses_nil
  | cons d rest => exact pauses_blank _

/-- No condition reads `always`, which is one word. -/
theorem always_ne (c : Condition) (rest : List Condition) :
    conditionChars [] ≠ conditionChars (c :: rest) := by
  intro h
  have blank : ' ' ∈ conditionChars (c :: rest) := by
    rw [conditionChars_cons]
    exact List.mem_append_left _ c.blank_mem_chars
  rw [← h] at blank
  exact absurd blank (by decide)

theorem conditionChars_injective : ∀ {cs cs' : List Condition},
    conditionChars cs = conditionChars cs' → cs = cs'
  | [], [], _ => rfl
  | [], c :: rest, h => absurd h (always_ne c rest)
  | c :: rest, [], h => absurd h.symm (always_ne c rest)
  | c :: rest, c' :: rest', h => by
    rw [conditionChars_cons, conditionChars_cons] at h
    obtain ⟨rfl, later⟩ :=
      Condition.eq_and_rest (pauses_laterChars rest) (pauses_laterChars rest') h
    cases rest with
    | nil =>
      cases rest' with
      | nil => rfl
      | cons d' more' => cases later
    | cons d more =>
      cases rest' with
      | nil => cases later
      | cons d' more' =>
        simp only [laterChars, List.cons.injEq, true_and] at later
        rw [conditionChars_injective later]

/-- Two rules have the same text exactly if they have the same action and the same conditions in the
same order, with amounts of the same sign, digits and scale. -/
theorem text_eq_iff (r r' : Rule) :
    r.text = r'.text ↔ r.action = r'.action ∧ r.conditions = r'.conditions := by
  have text_iff : r.text = r'.text ↔ r.chars = r'.chars := String.ofList_inj
  rw [text_iff]
  obtain ⟨index, action, conditions⟩ := r
  obtain ⟨index', action', conditions'⟩ := r'
  constructor
  · intro h
    have same : action = action' := by
      have letter := congrArg List.head? h
      cases action <;> cases action' <;> first | rfl | cases letter
    subst same
    simp only [chars, List.append_cancel_left_eq, List.cons.injEq, true_and] at h
    exact ⟨rfl, conditionChars_injective h⟩
  · rintro ⟨rfl, rfl⟩
    rfl

end Rule
end Backtest
