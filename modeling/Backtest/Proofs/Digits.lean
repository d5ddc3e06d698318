/-
Reading back printed digits. The digits of a number spell the number, without a zero in front, and
where no digit follows them they are read up to their end.
-/
import Backtest.Digits
import Mathlib.Data.Nat.Digits.Defs

namespace Backtest

theorem digit?_digitChar : ∀ d < 10, digit? (Nat.digitChar d) = some d := by
  decide

theorem exists_digit_of_mem {cs : List Char} {ds : List Nat} (h : cs.map digit? = ds.map some)
    {c : Char} (hc : c ∈ cs) : ∃ d, digit? c = some d := by
  have mem : digit? c ∈ ds.map some := h ▸ List.mem_map_of_mem hc
  obtain ⟨d, -, digit⟩ := List.mem_map.1 mem
  exact ⟨d, digit.symm⟩

/-- The leading digits are those in front of a character that is none. -/
theorem spanDigits_append {rest : List Char} (after : ∀ c ∈ rest.head?, digit? c = none) :
    ∀ {cs : List Char} {ds : List Nat}, cs.map digit? = ds.map some →
      spanDigits (cs ++ rest) = (ds, rest)
  | [], ds, h => by
    cases List.map_eq_nil_iff.1 h.symm
    rcases rest with _ | ⟨c, rest⟩
    · rfl
    · have none_here : digit? c = none := after c rfl
      rw [List.nil_append, spanDigits, none_here]
  | c :: cs, [], h => by cases h
  | c :: cs, d :: ds, h => by
    rw [List.map_cons, List.map_cons, List.cons.injEq] at h
    rw [List.cons_append, spanDigits, h.1]
    simp only [spanDigits_append after h.2]

/-- There is a digit, and the first is a zero only if it is the only one. -/
def LeadingDigits (ds : List Nat) : Prop :=
  ds = [0] ∨ ∃ d later, ds = d :: later ∧ d ≠ 0

/-- The digits of a number spell it. -/
theorem exists_digits_toDigits (n : Nat) :
    ∃ ds, (Nat.toDigits 10 n).map digit? = ds.map some ∧ digitsValue ds = n ∧
      LeadingDigits ds := by
  induction n using Nat.strongRecOn with
  | ind n ih =>
    rcases Nat.lt_or_ge n 10 with small | large
    · refine ⟨[n], ?_, by simp [digitsValue], ?_⟩
      · rw [Nat.toDigits_of_lt_base small, List.map_singleton, digit?_digitChar n small]
        rfl
      · rcases Nat.eq_zero_or_pos n with rfl | pos
        · exact .inl rfl
        · exact .inr ⟨n, [], rfl, Nat.pos_iff_ne_zero.1 pos⟩
    · obtain ⟨ds, digits, value, front⟩ := ih (n / 10) (Nat.div_lt_self (by omega) (by decide))
      refine ⟨ds ++ [n % 10], ?_, ?_, ?_⟩
      · rw [Nat.toDigits_of_base_le (by decide) large, List.map_append, List.map_append, digits,
          List.map_singleton, digit?_digitChar (n % 10) (Nat.mod_lt n (by decide))]
        rfl
      · rw [digitsValue_append, value, Nat.div_add_mod]
      · right
        rcases front with rfl | ⟨d, later, rfl, pos⟩
        · -- a number of two digits or more has one in front
          simp only [digitsValue, List.foldl_cons, List.foldl_nil] at value
          omega
        · exact ⟨d, later ++ [n % 10], rfl, pos⟩

/-! ## The value of digits -/

section Values

-- The power of naturals is the one of the core library in every context.
attribute [local instance (high)] instPowNat

/-- Digits that follow a number move it up by their places. -/
theorem foldl_digits : ∀ (ds : List Nat) (n : Nat),
    ds.foldl (fun n d => 10 * n + d) n = n * 10 ^ ds.length + digitsValue ds
  | [], n => by simp [digitsValue]
  | d :: ds, n => by
    have later := foldl_digits ds
    show ds.foldl _ (10 * n + d) = n * 10 ^ (ds.length + 1) + ds.foldl _ (10 * 0 + d)
    rw [later, later, Nat.pow_succ, Nat.add_mul, Nat.mul_zero, Nat.zero_add, ← Nat.add_assoc,
      Nat.mul_comm 10 n, Nat.mul_assoc, Nat.mul_comm 10]

theorem digitsValue_cons (d : Nat) (ds : List Nat) :
    digitsValue (d :: ds) = d * 10 ^ ds.length + digitsValue ds := by
  rw [digitsValue, List.foldl_cons, foldl_digits]
  simp

theorem digitsValue_append_list (ds es : List Nat) :
    digitsValue (ds ++ es) = digitsValue ds * 10 ^ es.length + digitsValue es := by
  rw [digitsValue, List.foldl_append, foldl_digits]
  rfl

@[simp] theorem digitsValue_replicate_zero : ∀ k : Nat, digitsValue (List.replicate k 0) = 0
  | 0 => rfl
  | k + 1 => by
    rw [List.replicate_succ, digitsValue_cons, digitsValue_replicate_zero, Nat.zero_mul]

/-- Zeros in front do not count. -/
theorem digitsValue_zeros_append (k : Nat) (ds : List Nat) :
    digitsValue (List.replicate k 0 ++ ds) = digitsValue ds := by
  rw [digitsValue_append_list, digitsValue_replicate_zero, Nat.zero_mul, Nat.zero_add]

/-- The last digits of a number spell what is left of it. -/
theorem exists_digits_lastDigits : ∀ n m : Nat,
    ∃ ds, (lastDigits n m).map digit? = ds.map some ∧ ds.length = n ∧ digitsValue ds = m % 10 ^ n
  | 0, m => ⟨[], rfl, rfl, by simp [digitsValue, Nat.mod_one]⟩
  | n + 1, m => by
    obtain ⟨ds, digits, length, value⟩ := exists_digits_lastDigits n (m / 10)
    refine ⟨ds ++ [m % 10], ?_, by rw [List.length_append, length]; rfl, ?_⟩
    · rw [lastDigits, List.map_append, List.map_append, digits, List.map_singleton,
        digit?_digitChar _ (Nat.mod_lt m (by decide))]
      rfl
    · rw [digitsValue_append, value, Nat.pow_succ, Nat.mul_comm (10 ^ n) 10, Nat.mod_mul]
      omega

end Values

end Backtest
