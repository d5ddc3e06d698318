/-
Which bars make up a series. A bar is compared with the one before it only, which is enough, since
the bars before it are in order already; so the check stops at the first bar that does not go with
those before it (`check_cases`). The bars of a window of a history come in the order of their times,
so they make up a series unless two of them have the same time or one has a close that is not
positive.
-/
import Backtest.Proofs.History.Window
import Mathlib.Order.Bounds.Basic

namespace Backtest

/-! ## Valid bars -/

namespace ValidBars

variable {bars before : List Bar} {bar : Bar}

theorem of_sublist (h : ValidBars bars) (sub : before.Sublist bars) : ValidBars before :=
  ⟨fun b hb => h.positive b (sub.subset hb), h.ascending.sublist sub⟩

/-- A bar goes with valid ones if it ends after the last of them. -/
theorem concat_iff : ValidBars (before ++ [bar]) ↔ ValidBars before ∧ bar.close.IsPositive ∧
    ∀ last ∈ before.getLast?, last.time < bar.time := by
  constructor
  · intro h
    refine ⟨h.of_sublist (List.sublist_append_left ..), h.positive bar (by simp), fun last hl => ?_⟩
    have mem : last ∈ before := List.mem_of_getLast? hl
    exact (List.pairwise_append.1 h.ascending).2.2 last mem bar (List.mem_singleton_self bar)
  · rintro ⟨valid, positive, after⟩
    refine ⟨fun b hb => ?_, List.pairwise_append.2 ⟨valid.ascending, List.pairwise_singleton _ _, ?_⟩⟩
    · rcases List.mem_append.1 hb with hb | hb
      · exact valid.positive b hb
      · exact List.mem_singleton.1 hb ▸ positive
    · -- a bar before the last one ends before it, so it ends before the new one too
      intro b hb c hc
      obtain rfl := List.mem_singleton.1 hc
      rcases List.eq_nil_or_concat' before with rfl | ⟨earlier, last, rfl⟩
      · cases hb
      have lt : last.time < c.time := after last (by simp)
      rcases List.mem_append.1 hb with hb | hb
      · have ordered := (List.pairwise_append.1 valid.ascending).2.2 b hb last (by simp)
        exact Instant.lt_trans ordered lt
      · exact List.mem_singleton.1 hb ▸ lt

end ValidBars

theorem Instant.not_lt_iff {a b : Instant} : ¬ a < b ↔ b ≤ a := by
  rw [lt_iff, le_iff]
  omega

/-! ## Faults -/

/-- The bars up to and with the one of an index are not valid. -/
def InvalidAt (bars : List Bar) (index : ℕ) : Prop :=
  ¬ ValidBars (bars.take (index + 1))

/-- What is wrong with the bar of an index. Its close comes before its time. -/
inductive SeriesFault.At (bars : List Bar) : ℕ → SeriesFault → Prop
  | close {index : ℕ} {bar : Bar} (here : bars[index]? = some bar)
      (nonpositive : ¬ bar.close.IsPositive) :
    At bars index (.nonPositiveClose index bar.close)
  | order {index : ℕ} {bar previous : Bar} (here : bars[index + 1]? = some bar)
      (positive : bar.close.IsPositive) (before : bars[index]? = some previous)
      (late : bar.time ≤ previous.time) :
    At bars (index + 1) (.notAfter (index + 1) bar.time previous.time)

theorem SeriesFault.At.unique {bars : List Bar} {index : ℕ} {fault fault' : SeriesFault}
    (h : At bars index fault) (h' : At bars index fault') : fault = fault' := by
  cases h with
  | close here nonpositive =>
    cases h' with
    | close here' =>
      cases here.symm.trans here'
      rfl
    | order here' positive =>
      cases here.symm.trans here'
      exact absurd positive nonpositive
  | order here positive before =>
    cases h' with
    | close here' nonpositive =>
      cases here.symm.trans here'
      exact absurd positive nonpositive
    | order here' _ before' =>
      cases here.symm.trans here'
      cases before.symm.trans before'
      rfl

/-- A bar that does not go with the valid ones before it is the first that is at fault. -/
theorem isLeast_invalidAt {before rest : List Bar} {bar : Bar} (valid : ValidBars before)
    (invalid : ¬ ValidBars (before ++ [bar])) :
    IsLeast {i | InvalidAt (before ++ bar :: rest) i} before.length := by
  constructor
  · show ¬ ValidBars _
    rwa [← List.singleton_append, ← List.append_assoc, List.take_left' (by simp)]
  · intro i hi
    by_contra earlier
    refine hi (valid.of_sublist ?_)
    rw [List.take_append_of_le_length (by omega)]
    exact List.take_sublist ..

namespace Series

/-! ## The check -/

/-- The check of the bars after valid ones passes those that go on with them, and else stops at the
first bar that does not. -/
theorem check_cases : ∀ (rest before : List Bar), ValidBars before →
    (check before.length (before.getLast?.map (·.time)) rest = .ok () ∧ ValidBars (before ++ rest)) ∨
    ∃ i fault, check before.length (before.getLast?.map (·.time)) rest = .error fault ∧
      IsLeast {i | InvalidAt (before ++ rest) i} i ∧ fault.At (before ++ rest) i
  | [], before, valid => .inl ⟨rfl, by rwa [List.append_nil]⟩
  | bar :: rest, before, valid => by
    have here : (before ++ bar :: rest)[before.length]? = some bar := by simp
    by_cases positive : bar.close.IsPositive
    · by_cases after : ∀ last ∈ before.getLast?, last.time < bar.time
      · have next : check before.length (before.getLast?.map (·.time)) (bar :: rest) =
            check (before.length + 1) (some bar.time) rest := by
          rw [check.eq_def]
          dsimp only
          rw [if_neg (not_not_intro positive)]
          rcases hl : before.getLast? with _ | last
          · rfl
          · exact if_pos (after last hl)
        have rest_cases := check_cases rest (before ++ [bar])
          (ValidBars.concat_iff.2 ⟨valid, positive, after⟩)
        rw [next]
        simpa using rest_cases
      · obtain ⟨last, hl, late⟩ : ∃ last, before.getLast? = some last ∧ ¬ last.time < bar.time := by
          simpa using after
        obtain ⟨earlier, rfl⟩ : ∃ earlier, before = earlier ++ [last] :=
          List.getLast?_eq_some_iff.1 hl
        refine .inr ⟨earlier.length + 1, .notAfter (earlier.length + 1) bar.time last.time, ?_, ?_, ?_⟩
        · rw [check.eq_def, hl, List.length_append]
          dsimp only [Option.map_some]
          rw [if_neg (not_not_intro positive)]
          exact if_neg late
        · have invalid : ¬ ValidBars (earlier ++ [last] ++ [bar]) :=
            fun h => late ((ValidBars.concat_iff.1 h).2.2 last hl)
          have place : earlier.length + 1 = (earlier ++ [last]).length := by simp
          rw [place]
          exact isLeast_invalidAt valid invalid
        · exact .order (by simp) positive (by simp) (Instant.not_lt_iff.1 late)
    · refine .inr ⟨before.length, .nonPositiveClose before.length bar.close, ?_, ?_, ?_⟩
      · rw [check.eq_def]
        exact if_pos positive
      · exact isLeast_invalidAt valid fun h => positive (ValidBars.concat_iff.1 h).2.1
      · exact .close here positive

variable {symbol : String} {bars : List Bar}

theorem ofBars?_of_check (h : check 0 none bars = .ok ()) :
    ∃ s, ofBars? symbol bars = .ok s ∧ s.symbol = symbol ∧ s.bars = bars := by
  unfold ofBars?
  split
  · exact ⟨_, rfl, rfl, rfl⟩
  · next fault refused =>
    rw [h] at refused
    cases refused

theorem ofBars?_of_fault {fault : SeriesFault} (h : check 0 none bars = .error fault) :
    ofBars? symbol bars = .error fault := by
  unfold ofBars?
  split
  · next passed =>
    rw [h] at passed
    cases passed
  · next fault' refused =>
    rw [h] at refused
    cases refused
    rfl

/-- Bars are a series as they are, or the first that is at fault is named. -/
theorem ofBars?_cases (symbol : String) (bars : List Bar) :
    (∃ s, ofBars? symbol bars = .ok s ∧ s.symbol = symbol ∧ s.bars = bars ∧ ValidBars bars) ∨
    ∃ i fault, ofBars? symbol bars = .error fault ∧ IsLeast {i | InvalidAt bars i} i ∧
      fault.At bars i := by
  rcases check_cases bars [] ⟨by simp, List.Pairwise.nil⟩ with
    ⟨passed, valid⟩ | ⟨i, fault, refused, least, at_i⟩
  · obtain ⟨s, hs, hy, hb⟩ := ofBars?_of_check passed
    exact .inl ⟨s, hs, hy, hb, valid⟩
  · exact .inr ⟨i, fault, ofBars?_of_fault refused, least, at_i⟩

theorem eq_of_ofBars? {s : Series} (h : ofBars? symbol bars = .ok s) :
    s.symbol = symbol ∧ s.bars = bars := by
  rcases ofBars?_cases symbol bars with ⟨s', hs', hy, hb, -⟩ | ⟨_, _, refused, -⟩
  · cases h.symm.trans hs'
    exact ⟨hy, hb⟩
  · cases h.symm.trans refused

theorem exists_ofBars?_iff : (∃ s, ofBars? symbol bars = .ok s) ↔ ValidBars bars := by
  constructor
  · rintro ⟨s, hs⟩
    rcases ofBars?_cases symbol bars with ⟨-, -, -, -, valid⟩ | ⟨_, _, refused, -⟩
    · exact valid
    · cases hs.symm.trans refused
  · intro valid
    rcases ofBars?_cases symbol bars with ⟨s, hs, -⟩ | ⟨i, _, -, least, -⟩
    · exact ⟨s, hs⟩
    · exact absurd (valid.of_sublist (List.take_sublist ..)) least.1

/-- The bars of a series make it up. -/
theorem ofBars?_eq_ok_iff {s : Series} :
    ofBars? symbol bars = .ok s ↔ s.symbol = symbol ∧ s.bars = bars := by
  refine ⟨eq_of_ofBars?, ?_⟩
  rintro ⟨rfl, rfl⟩
  obtain ⟨⟨symbol, bars, valid⟩, accepted⟩ := exists_ofBars?_iff.2 s.valid
  obtain ⟨rfl, rfl⟩ := eq_of_ofBars? accepted
  exact accepted

theorem not_exists_fault_iff : (¬ ∃ fault, ofBars? symbol bars = .error fault) ↔ ValidBars bars := by
  have accepted : (¬ ∃ fault, ofBars? symbol bars = .error fault) ↔
      ∃ s, ofBars? symbol bars = .ok s := by
    cases ofBars? symbol bars <;> simp
  exact accepted.trans exists_ofBars?_iff

theorem ofBars?_eq_error_iff {fault : SeriesFault} : ofBars? symbol bars = .error fault ↔
    ∃ i, IsLeast {i | InvalidAt bars i} i ∧ fault.At bars i := by
  rcases ofBars?_cases symbol bars with ⟨s, hs, -, -, valid⟩ | ⟨i, fault', refused, least, at_i⟩
  · rw [hs]
    refine ⟨nofun, ?_⟩
    rintro ⟨i, least, -⟩
    exact absurd (valid.of_sublist (List.take_sublist ..)) least.1
  · rw [refused]
    constructor
    · rintro ⟨⟩
      exact ⟨i, least, at_i⟩
    · rintro ⟨i', least', at_i'⟩
      obtain rfl := least.unique least'
      rw [at_i.unique at_i']

end Series

/-! ## Bars of a window -/

namespace History

/-- Two bars at different places in the table lie in the window and have the same time. -/
def Clash (first last : Date) (bars : List Bar) : Prop :=
  ∃ (i j : ℕ) (a b : Bar), i ≠ j ∧ bars[i]? = some a ∧ bars[j]? = some b ∧
    Within first last a ∧ Within first last b ∧ a.time = b.time

/-- A bar in the window has a close that is not positive. -/
def Worthless (first last : Date) (bars : List Bar) : Prop :=
  ∃ bar ∈ bars, Within first last bar ∧ ¬ bar.close.IsPositive

variable {first last : Date} {bars shown : List Bar}

theorem not_clash_iff : ¬ Clash first last bars ↔
    (bars.filter (Within first last)).Pairwise fun a b => a.time ≠ b.time := by
  rw [List.pairwise_filter, List.pairwise_iff_getElem]
  constructor
  · intro distinct i j hi hj lt within within' same
    exact distinct ⟨i, j, bars[i], bars[j], Nat.ne_of_lt lt, List.getElem?_eq_getElem hi,
      List.getElem?_eq_getElem hj, within, within', same⟩
  · rintro distinct ⟨i, j, a, b, ne, ha, hb, within, within', same⟩
    obtain ⟨hi, rfl⟩ := List.getElem?_eq_some_iff.1 ha
    obtain ⟨hj, rfl⟩ := List.getElem?_eq_some_iff.1 hb
    rcases Nat.lt_or_gt_of_ne ne with lt | gt
    · exact distinct i j hi hj lt within within' same
    · exact distinct j i hj hi gt within' within same.symm

/-- Bars in order of their times ascend if no two have the same. -/
theorem ascending_iff_of_inOrder (h : InOrder bars shown) :
    (shown.Pairwise fun a b => a.time < b.time) ↔ bars.Pairwise fun a b => a.time ≠ b.time := by
  rw [← h.perm.pairwise_iff fun distinct => Ne.symm distinct]
  constructor
  · refine fun ascending => ascending.imp fun {a b} lt same => ?_
    rw [same, Instant.lt_iff] at lt
    omega
  · refine fun distinct => (h.ascending.and distinct).imp fun {a b} ⟨le, ne⟩ => ?_
    by_contra late
    exact ne (Instant.le_antisymm le (Instant.not_lt_iff.1 late))

theorem validBars_iff_of_inOrder (h : InOrder (bars.filter (Within first last)) shown) :
    ValidBars shown ↔ ¬ Clash first last bars ∧ ¬ Worthless first last bars := by
  have positive : (∀ bar ∈ shown, bar.close.IsPositive) ↔ ¬ Worthless first last bars := by
    simp only [h.perm.mem_iff, List.mem_filter, Worthless, not_exists, not_and, not_not, and_imp]
  rw [not_clash_iff, ← ascending_iff_of_inOrder h, ← positive]
  exact ⟨fun valid => ⟨valid.ascending, valid.positive⟩, fun ⟨a, p⟩ => ⟨p, a⟩⟩

end History

open History

namespace Series

/-- Bars make up a series as they are exactly if every close is positive and every bar ends before
all later ones. Otherwise the fault is that of the first bar up to which they do not, where its close
comes before its time. The bars that a window of a history shows are no series exactly if two rows in
the window have the same time or one of them has a close that is not positive, in whatever order the
rows stand and whatever the others hold. -/
theorem ofBars?_accepts_valid (symbol : String) :
    (∀ bars, (∃ s, ofBars? symbol bars = .ok s) ↔ ValidBars bars) ∧
    (∀ bars s, ofBars? symbol bars = .ok s → s.symbol = symbol ∧ s.bars = bars) ∧
    (∀ bars fault, ofBars? symbol bars = .error fault ↔
      ∃ i, IsLeast {i | InvalidAt bars i} i ∧ fault.At bars i) ∧
    ∀ (tree : FileTree) (folder text : String) (bars : List Bar) (first last : Date),
      tree.read (fileIn folder symbol "csv") = .ok text → Rows text bars →
      ∃ shown, loadWindow FileTree.access folder symbol first last tree = (.ok shown, tree) ∧
        ((∃ fault, ofBars? symbol shown = .error fault) ↔
          Clash first last bars ∨ Worthless first last bars) := by
  refine ⟨fun bars => exists_ofBars?_iff, fun bars s => eq_of_ofBars?,
    fun bars fault => ofBars?_eq_error_iff, fun tree folder text bars first last reads rows => ?_⟩
  have order := (inOrder_mergeSort bars).filter (Within first last)
  refine ⟨window first last (bars.mergeSort fun a b => decide (a.time ≤ b.time)), ?_, ?_⟩
  · rw [loadWindow_of_read reads, ofText_of_rows rows]
  · rw [← not_iff_not, not_or]
    exact not_exists_fault_iff.trans (validBars_iff_of_inOrder order)

/-- Two rows of one instant, written in different zones, do not make up a series. The day without
them does, although a row outside has a close of zero. -/
theorem ofBars?_of_clash_in_zones :
    let text := "end_time,open,high,low,close,volume\n2024-01-03,1,1,1,1,1\n" ++
      "2024-01-02T01:00:00+01:00,1,1,1,100,1\n2024-02-01,1,1,1,0,1\n2024-01-02,1,1,1,1,1\n"
    let tree : FileTree := ⟨[(["A.csv"], .text text)]⟩
    let day := Date.ofCivil ⟨2024, 1, 2⟩
    let next := Date.ofCivil ⟨2024, 1, 3⟩
    let bar (second : Int) (close : Decimal) : Bar := ⟨⟨second, 0⟩, .one, .one, .one, close, .one⟩
    let bars := [bar 1704240000 .one, bar 1704153600 .hundred, bar 1706745600 .zero,
      bar 1704153600 .one]
    tree.read (fileIn "." "A" "csv") = .ok text ∧ Rows text bars ∧ Clash day next bars ∧
    (∃ shown, loadWindow FileTree.access "." "A" day next tree = (.ok shown, tree) ∧
      ∃ fault, ofBars? "A" shown = .error fault) ∧
    ¬ (Clash next next bars ∨ Worthless next next bars) ∧
    ∃ shown, loadWindow FileTree.access "." "A" next next tree = (.ok shown, tree) ∧
      ¬ ∃ fault, ofBars? "A" shown = .error fault := by
  intro text tree day next bar bars
  have reads : tree.read (fileIn "." "A" "csv") = .ok text := by decide +kernel
  have read : History.rows text = .ok bars := by decide +kernel
  rw [rows_eq] at read
  have rows : Rows text bars := bars_eq_ok_iff.1 read
  have clash : Clash day next bars := by
    refine ⟨1, 3, bar 1704153600 .hundred, bar 1704153600 .one, by decide, rfl, rfl, ?_, ?_, rfl⟩ <;>
      decide +kernel
  have fine : ¬ (Clash next next bars ∨ Worthless next next bars) := by
    rw [not_or, not_clash_iff]
    refine ⟨by decide +kernel, ?_⟩
    unfold Worthless
    decide +kernel
  have spec := (ofBars?_accepts_valid "A").2.2.2 tree "." text bars
  obtain ⟨shown, loaded, invalid⟩ := spec day next reads rows
  obtain ⟨shown', loaded', invalid'⟩ := spec next next reads rows
  exact ⟨reads, rows, clash, ⟨shown, loaded, invalid.2 (.inl clash)⟩, fine,
    ⟨shown', loaded', fun fault => fine (invalid'.1 fault)⟩⟩

end Series
end Backtest
