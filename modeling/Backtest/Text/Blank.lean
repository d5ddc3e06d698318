/-
Blank characters and trimming. Blank are the tabulators, line ends and spaces of all scripts.
-/
namespace Backtest.Text

def isBlank (c : Char) : Bool :=
  let n := c.toNat
  (9 ≤ n && n ≤ 13) || n == 0x20 || n == 0x85 || n == 0xA0 || n == 0x1680 ||
    (0x2000 ≤ n && n ≤ 0x200A) || n == 0x2028 || n == 0x2029 || n == 0x202F || n == 0x205F ||
    n == 0x3000

/-- The characters without the blank ones at either end. -/
def trimChars (cs : List Char) : List Char :=
  ((cs.dropWhile isBlank).reverse.dropWhile isBlank).reverse

/-- A text is trimmed when neither its first nor its last character is blank. -/
def IsTrimmed (cs : List Char) : Prop :=
  (∀ c ∈ cs.head?, isBlank c = false) ∧ ∀ c ∈ cs.getLast?, isBlank c = false

theorem head?_dropWhile_isBlank (cs : List Char) :
    ∀ c ∈ (cs.dropWhile isBlank).head?, isBlank c = false := by
  intro c hc
  have := List.head?_dropWhile_not isBlank cs
  rw [Option.mem_def.mp hc] at this
  simpa using this

theorem isTrimmed_trimChars (cs : List Char) : IsTrimmed (trimChars cs) := by
  constructor
  · intro c hc
    have hpre : trimChars cs <+: cs.dropWhile isBlank := by
      have := List.dropWhile_suffix isBlank (l := (cs.dropWhile isBlank).reverse)
      have := List.reverse_prefix.mpr this
      rwa [List.reverse_reverse] at this
    obtain ⟨rest, hrest⟩ := hpre
    refine head?_dropWhile_isBlank cs c ?_
    rw [← hrest, Option.mem_def, List.head?_append, Option.mem_def.mp hc]
    rfl
  · intro c hc
    refine head?_dropWhile_isBlank (cs.dropWhile isBlank).reverse c ?_
    rwa [trimChars, List.getLast?_reverse] at hc

theorem trimChars_of_isTrimmed {cs : List Char} (h : IsTrimmed cs) : trimChars cs = cs := by
  have keep (l : List Char) (hl : ∀ c ∈ l.head?, isBlank c = false) : l.dropWhile isBlank = l := by
    cases l with
    | nil => rfl
    | cons c rest => simp [hl c rfl]
  rw [trimChars, keep cs h.1, keep cs.reverse (by simpa using h.2), List.reverse_reverse]

/-- The text without blanks at either end. -/
def trim (s : String) : String :=
  String.ofList (trimChars s.toList)

end Backtest.Text
