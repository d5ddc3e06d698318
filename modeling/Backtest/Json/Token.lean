/-
The tokens of a JSON text. A flaw inside a token depends on what the reader wants: a value that is
only skipped may hold numbers out of range and unpaired surrogates, one that is kept may not. A
token therefore records the flaw of either kind of reader, and the token list ends at the first
place that neither can pass.
-/
import Backtest.Json.Number
import Backtest.Digits

namespace Backtest

inductive JsonToken where
  | openList
  | closeList
  | openRecord
  | closeRecord
  | colon
  | comma
  | null
  | boolean (value : Bool)
  | number (n : JsonNumber)
  | text (s : String)
  /-- A text that can be skipped but not kept. -/
  | spoiltText (flaw : JsonFlaw)
  /-- A number that can be skipped but not kept. -/
  | spoiltNumber (flaw : JsonFlaw)
  /-- A text that does not end well. -/
  | brokenText (kept skipped : JsonFlaw)
  /-- Anything else that is no token. -/
  | broken (kept skipped : JsonFlaw)
  deriving DecidableEq

namespace JsonToken

/-- A token and what follows it; nothing follows a broken one. -/
abbrev Scan := JsonToken × List Char

def isBlank (c : Char) : Bool :=
  c == ' ' || c == '\n' || c == '\t' || c == '\r'

/-! ## Texts -/

def hexValue? (c : Char) : Option Nat :=
  if '0' ≤ c ∧ c ≤ '9' then some (c.toNat - '0'.toNat)
  else if 'a' ≤ c ∧ c ≤ 'f' then some (c.toNat - 'a'.toNat + 10)
  else if 'A' ≤ c ∧ c ≤ 'F' then some (c.toNat - 'A'.toNat + 10)
  else none

/-- The UTF-16 unit that four hexadecimal digits spell. -/
def unit? (a b c d : Char) : Option Nat := do
  let a ← hexValue? a
  let b ← hexValue? b
  let c ← hexValue? c
  let d ← hexValue? d
  return ((a * 16 + b) * 16 + c) * 16 + d

def isHigh (unit : Nat) : Bool := 0xD800 ≤ unit && unit ≤ 0xDBFF

def isLow (unit : Nat) : Bool := 0xDC00 ≤ unit && unit ≤ 0xDFFF

/-- The character of a pair of surrogates. -/
def pair (high low : Nat) : Char :=
  Char.ofNat ((high - 0xD800) * 0x400 + (low - 0xDC00) + 0x10000)

/-- The character that a backslash and `c` stand for. -/
def escape? (c : Char) : Option Char :=
  if c = '"' ∨ c = '\\' ∨ c = '/' then some c
  else if c = 'b' then some '\x08'
  else if c = 'f' then some '\x0c'
  else if c = 'n' then some '\n'
  else if c = 'r' then some '\r'
  else if c = 't' then some '\t'
  else none

/-- The flaw of a hexadecimal escape that is not four digits: the text counts as ended if less
than four bytes are left. -/
def hexFlaw (rest : List Char) : JsonFlaw :=
  if (String.ofList rest).utf8ByteSize < 4 then .endInText else .invalidEscape

/-- Close a text: the first surrogate trouble, if any, spoils it. -/
def finishText (read : List Char) : Option JsonFlaw → JsonToken
  | none => .text (String.ofList read.reverse)
  | some flaw => .spoiltText flaw

/-- What is wrong with a high surrogate that the given text follows, which holds no low one: nothing
if the text is broken right there, for then that is its flaw. -/
def afterHigh : List Char → Option JsonFlaw
  | [] => none
  | ['\\'] => none
  | '\\' :: 'u' :: a :: b :: c :: d :: _ => (unit? a b c d).map fun _ => .loneSurrogate
  | '\\' :: 'u' :: _ => none
  | _ => some .missingLowSurrogate

/-- Scan a text up to its closing quote. `read` holds the characters so far in reverse, `spoilt`
the first surrogate trouble. -/
def scanText : List Char → (read : List Char) → (spoilt : Option JsonFlaw) → Scan
  | [], _, spoilt => (.brokenText (spoilt.getD .endInText) .endInText, [])
  | c :: rest, read, spoilt =>
    if c = '"' then (finishText read spoilt, rest)
    else if c < ' ' then (.brokenText (spoilt.getD .controlCharacter) .controlCharacter, [])
    else if c ≠ '\\' then scanText rest (c :: read) spoilt
    else
      match rest with
      | [] => (.brokenText (spoilt.getD .endInText) .endInText, [])
      | 'u' :: a :: b :: c :: d :: rest =>
        match unit? a b c d with
        | none =>
          let flaw := hexFlaw (a :: b :: c :: d :: rest)
          (.brokenText (spoilt.getD flaw) flaw, [])
        | some unit =>
          if isLow unit then scanText rest read (spoilt.or (some .loneSurrogate))
          else if isHigh unit then
            match rest with
            | '\\' :: 'u' :: a :: b :: c :: d :: rest =>
              match (unit? a b c d).filter isLow with
              | some low => scanText rest (pair unit low :: read) spoilt
              | none =>
                let next := '\\' :: 'u' :: a :: b :: c :: d :: rest
                scanText next read (spoilt.or (afterHigh next))
            | next => scanText next read (spoilt.or (afterHigh next))
          else scanText rest (Char.ofNat unit :: read) spoilt
      | 'u' :: rest =>
        let flaw := hexFlaw rest
        (.brokenText (spoilt.getD flaw) flaw, [])
      | e :: rest =>
        match escape? e with
        | some x => scanText rest (x :: read) spoilt
        | none => (.brokenText (spoilt.getD .invalidEscape) .invalidEscape, [])
termination_by structural text => text

/-! ## Numbers and words -/

/-- The flaw of a number that lacks a digit before the given text; a kept one may just have
ended. -/
def missingDigit (rest : List Char) : JsonToken :=
  .broken (if rest = [] then .endInValue else .invalidNumber) .invalidNumber

/-- Close a number. -/
def finishNumber (parts : NumberParts) (rest : List Char) : Scan :=
  match parts.value with
  | .ok n => (.number n, rest)
  | .error flaw => (.spoiltNumber flaw, rest)

/-- Scan the exponent, if there is one, and close the number. -/
def scanExponent (parts : NumberParts) (rest : List Char) : Scan :=
  let digitsAfter (negative : Bool) (rest : List Char) : Scan :=
    match spanDigits rest with
    | ([], rest) => (missingDigit rest, [])
    | (digits, rest) => finishNumber { parts with exponent := some (negative, digits) } rest
  match rest with
  | [] => finishNumber parts []
  | c :: rest =>
    if c = 'e' ∨ c = 'E' then
      match rest with
      | '-' :: rest => digitsAfter true rest
      | '+' :: rest => digitsAfter false rest
      | rest => digitsAfter false rest
    else finishNumber parts (c :: rest)

/-- Scan a number after its sign. A zero in front stands alone. -/
def scanNumber (negative : Bool) (text : List Char) : Scan :=
  match spanDigits text with
  | ([], rest) => (missingDigit rest, [])
  | (0 :: _ :: _, _) => (.broken .invalidNumber .invalidNumber, [])
  | (whole, '.' :: rest) =>
    match spanDigits rest with
    | ([], rest) => (missingDigit rest, [])
    | (fraction, rest) => scanExponent ⟨negative, whole, fraction, none⟩ rest
  | (whole, rest) => scanExponent ⟨negative, whole, [], none⟩ rest

/-- Scan the rest of a word whose first letter was read. -/
def scanWord (token : JsonToken) : (expected text : List Char) → Scan
  | [], rest => (token, rest)
  | _ :: _, [] => (.broken .endInValue .endInValue, [])
  | e :: expected, c :: rest =>
    if e = c then scanWord token expected rest else (.broken .expectedWord .expectedWord, [])

/-- Scan the token that starts with `c`, which is not blank. -/
def scan (c : Char) (rest : List Char) : Scan :=
  match c with
  | '[' => (.openList, rest)
  | ']' => (.closeList, rest)
  | '\x7b' => (.openRecord, rest)
  | '\x7d' => (.closeRecord, rest)
  | ':' => (.colon, rest)
  | ',' => (.comma, rest)
  | '"' => scanText rest [] none
  | '-' => scanNumber true rest
  | 'n' => scanWord .null ['u', 'l', 'l'] rest
  | 't' => scanWord (.boolean true) ['r', 'u', 'e'] rest
  | 'f' => scanWord (.boolean false) ['a', 'l', 's', 'e'] rest
  | c =>
    if c.isDigit then scanNumber false (c :: rest)
    else (.broken .expectedValue .expectedValue, [])

/-! ## The rest gets shorter -/

theorem length_finishNumber (parts : NumberParts) (rest : List Char) :
    (finishNumber parts rest).2.length ≤ rest.length := by
  unfold finishNumber
  split <;> exact Nat.le_refl _

theorem length_scanExponent (parts : NumberParts) (rest : List Char) :
    (scanExponent parts rest).2.length ≤ rest.length := by
  have after (negative : Bool) (rest : List Char) :
      (match spanDigits rest with
        | ([], rest) => (missingDigit rest, [])
        | (digits, rest) =>
          finishNumber { parts with exponent := some (negative, digits) } rest : Scan).2.length
        ≤ rest.length := by
    have h := length_spanDigits rest
    split
    · exact Nat.zero_le _
    · next heq =>
      rw [heq] at h
      exact Nat.le_trans (length_finishNumber _ _) (by dsimp only at h; omega)
  unfold scanExponent
  split
  · exact length_finishNumber _ _
  · split
    · split
      · exact Nat.le_trans (after _ _) (by simp only [List.length_cons]; omega)
      · exact Nat.le_trans (after _ _) (by simp only [List.length_cons]; omega)
      · exact Nat.le_trans (after _ _) (by simp only [List.length_cons]; omega)
    · exact length_finishNumber _ _

theorem length_scanNumber (negative : Bool) (text : List Char) :
    (scanNumber negative text).2.length ≤ text.length - 1 := by
  have h := length_spanDigits text
  unfold scanNumber
  split
  · exact Nat.zero_le _
  · exact Nat.zero_le _
  · next rest _ _ heq =>
    rw [heq] at h
    simp only [List.length_cons] at h
    have h' := length_spanDigits rest
    split
    · exact Nat.zero_le _
    · next heq' =>
      rw [heq'] at h'
      dsimp only at h'
      exact Nat.le_trans (length_scanExponent _ _) (by omega)
  · next whole rest nonempty _ _ heq =>
    rw [heq] at h
    have := List.length_pos_iff.mpr nonempty
    dsimp only at h
    exact Nat.le_trans (length_scanExponent _ _) (by omega)

theorem length_scanWord (token : JsonToken) (expected text : List Char) :
    (scanWord token expected text).2.length ≤ text.length := by
  induction expected generalizing text with
  | nil => exact Nat.le_refl _
  | cons e expected ih =>
    cases text with
    | nil => exact Nat.zero_le _
    | cons c rest =>
      unfold scanWord
      split
      · exact Nat.le_succ_of_le (ih rest)
      · exact Nat.zero_le _

theorem length_scanText (text read : List Char) (spoilt : Option JsonFlaw) :
    (scanText text read spoilt).2.length ≤ text.length := by
  fun_induction scanText text read spoilt with
  | case9 => rename_i ih; exact Nat.le_trans ih (by simp only [List.length_cons]; omega)
  | _ => simp_all only [List.length_cons, List.length_nil, Nat.zero_le] <;> omega

/-- A token takes at least the character it starts with. -/
theorem length_scan (c : Char) (rest : List Char) : (scan c rest).2.length ≤ rest.length := by
  unfold scan
  split
  all_goals first
    | exact Nat.le_refl _
    | exact length_scanText _ _ _
    | exact length_scanWord _ _ _
    | exact Nat.le_trans (length_scanNumber _ _) (Nat.sub_le _ _)
    | skip
  split
  · exact length_scanNumber false (_ :: rest)
  · exact Nat.zero_le _

/-- The tokens of a text, up to the first broken one. -/
def tokens : List Char → List JsonToken
  | [] => []
  | c :: rest =>
    if isBlank c then tokens rest
    else (scan c rest).1 :: tokens (scan c rest).2
termination_by text => text.length
decreasing_by
  · simp
  · exact Nat.lt_succ_of_le (length_scan c rest)

end JsonToken
end Backtest
