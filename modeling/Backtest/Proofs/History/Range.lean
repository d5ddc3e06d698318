/-
Windows of one history, and the range of its dates. Instants in order have dates in order, so a
window falls into two where it is cut between two days, and the dates of the first and the last bar
are the ends of the narrowest window that shows them all.
-/
import Backtest.Proofs.History.Window

namespace Backtest

/-! ## Dates in order -/

/-- The day after. -/
def Date.next (d : Date) : Date := ⟨d.day + 1⟩

namespace Date

variable {d e f : Date}

theorem le_iff : d ≤ e ↔ d.day ≤ e.day := Iff.rfl

theorem lt_iff : d < e ↔ d.day < e.day := Iff.rfl

theorem le_trans (h : d ≤ e) (h' : e ≤ f) : d ≤ f := by
  rw [le_iff] at *
  omega

theorem not_le_iff : ¬ d ≤ e ↔ e < d := by
  rw [le_iff, lt_iff]
  omega

theorem next_le_iff : d.next ≤ e ↔ d < e := by
  show d.day + 1 ≤ e.day ↔ d.day < e.day
  omega

end Date

/-- A later instant has no earlier date, whatever the fraction of its second. -/
theorem Instant.date_mono {a b : Instant} (h : a ≤ b) : a.date ≤ b.date := by
  rw [le_iff] at h
  show a.second / 86400 ≤ b.second / 86400
  omega

namespace History

/-- Bars whose dates are in order. -/
def Dated (bars : List Bar) : Prop :=
  bars.Pairwise fun a b => a.time.date ≤ b.time.date

theorem dated_of_inOrder {bars ordered : List Bar} (h : InOrder bars ordered) : Dated ordered :=
  h.ascending.imp Instant.date_mono

theorem within_iff {first last : Date} {bar : Bar} :
    Within first last bar ↔ first ≤ bar.time.date ∧ bar.time.date ≤ last := by
  simp [Within]

/-! ## Cutting a window -/

variable {bars : List Bar} {first middle last : Date}

/-- In order, the bars up to a day come before those of later days. -/
theorem early_append_late (middle : Date) : ∀ {bars : List Bar}, Dated bars →
    bars.filter (fun b => decide (b.time.date ≤ middle)) ++
      bars.filter (fun b => decide (middle.next ≤ b.time.date)) = bars
  | [], _ => rfl
  | bar :: rest, dated => by
    obtain ⟨later, dated_rest⟩ := List.pairwise_cons.1 dated
    by_cases early : bar.time.date ≤ middle
    · have not_late : ¬ middle.next ≤ bar.time.date := by
        rw [Date.next_le_iff, ← Date.not_le_iff, not_not]
        exact early
      simp only [List.filter_cons, early, not_late, decide_true, decide_false, if_true,
        Bool.false_eq_true, if_false, List.cons_append, early_append_late middle dated_rest]
    · -- from the first bar after the day on, all are after it
      have late : ∀ b ∈ bar :: rest, middle < b.time.date := by
        intro b hb
        rw [← Date.not_le_iff]
        intro earlier
        rcases List.mem_cons.1 hb with rfl | hb
        · exact early earlier
        · exact early (Date.le_trans (later b hb) earlier)
      have none_early : (bar :: rest).filter (fun b => decide (b.time.date ≤ middle)) = [] := by
        refine List.filter_eq_nil_iff.2 fun b hb => ?_
        simpa using Date.not_le_iff.2 (late b hb)
      have all_late :
          (bar :: rest).filter (fun b => decide (middle.next ≤ b.time.date)) = bar :: rest := by
        refine List.filter_eq_self.2 fun b hb => ?_
        simpa using Date.next_le_iff.2 (late b hb)
      rw [none_early, all_late, List.nil_append]

/-- A window is cut between two of its days. -/
theorem window_cut (dated : Dated bars) (some_early : first ≤ middle) (some_late : middle < last) :
    window first last bars = window first middle bars ++ window middle.next last bars := by
  have early : ∀ d : Date, (first ≤ d ∧ d ≤ last) ∧ d ≤ middle ↔ first ≤ d ∧ d ≤ middle := by
    intro d
    simp only [Date.le_iff, Date.lt_iff] at *
    omega
  have late : ∀ d : Date, (first ≤ d ∧ d ≤ last) ∧ middle.next ≤ d ↔ middle.next ≤ d ∧ d ≤ last := by
    intro d
    rw [Date.next_le_iff]
    simp only [Date.le_iff, Date.lt_iff] at *
    omega
  unfold window
  conv_lhs => rw [← early_append_late middle dated]
  rw [List.filter_append, List.filter_filter, List.filter_filter]
  congr 1
  · refine List.filter_congr fun b _ => Bool.eq_iff_iff.2 ?_
    simp only [Bool.and_eq_true, decide_eq_true_eq]
    exact early b.time.date
  · refine List.filter_congr fun b _ => Bool.eq_iff_iff.2 ?_
    simp only [Bool.and_eq_true, decide_eq_true_eq]
    exact late b.time.date

/-! ## The range -/

theorem range?_eq_none_iff : range? bars = none ↔ bars = [] := by
  cases bars <;> simp [range?, List.getLast?_cons]

theorem range?_eq_some_iff {n : ℕ} : range? bars = some (first, last, n) ↔
    (∃ a ∈ bars.head?, a.time.date = first) ∧ (∃ b ∈ bars.getLast?, b.time.date = last) ∧
      bars.length = n := by
  cases bars <;> simp [range?, List.getLast?_cons]

/-- The windows that show all bars are those around the first and the last date. -/
theorem forall_within_iff {n : ℕ} (dated : Dated bars) (h : range? bars = some (first, last, n))
    (first' last' : Date) :
    (∀ bar ∈ bars, Within first' last' bar) ↔ first' ≤ first ∧ last ≤ last' := by
  obtain ⟨⟨a, ha, rfl⟩, ⟨b, hb, rfl⟩, -⟩ := range?_eq_some_iff.1 h
  constructor
  · intro all
    exact ⟨(within_iff.1 (all a (List.mem_of_head? ha))).1,
      (within_iff.1 (all b (List.mem_of_getLast? hb))).2⟩
  · rintro ⟨before, after⟩ bar hm
    rw [within_iff]
    constructor
    · obtain ⟨rest, rfl⟩ := List.head?_eq_some_iff.1 ha
      rcases List.mem_cons.1 hm with rfl | hm
      · exact before
      · exact Date.le_trans before ((List.pairwise_cons.1 dated).1 bar hm)
    · obtain ⟨rest, rfl⟩ := List.getLast?_eq_some_iff.1 hb
      rcases List.mem_append.1 hm with hm | hm
      · exact Date.le_trans ((List.pairwise_append.1 dated).2.2 bar hm b (by simp)) after
      · exact List.mem_singleton.1 hm ▸ after

/-- A window shows all bars exactly if all lie in it. -/
theorem window_perm_iff {rows : List Bar} (perm : bars.Perm rows) :
    (window first last bars).Perm rows ↔ ∀ bar ∈ bars, Within first last bar := by
  constructor
  · intro all
    exact List.length_filter_eq_length_iff.1 (all.trans perm.symm).length_eq
  · intro all
    have whole : window first last bars = bars := List.filter_eq_self.2 all
    rwa [whole]

end History

open History

variable {tree : FileTree} {folder symbol text : String}

theorem loadRange_of_read (h : tree.read (fileIn folder symbol "csv") = .ok text) :
    loadRange FileTree.access folder symbol tree =
      (match History.ofText text with
        | .ok bars => .ok (range? bars)
        | .error fault => .error (.malformedHistory fault), tree) := by
  rw [loadRange_eq, FileTree.load_of_read h]
  rcases History.ofText text with fault | bars <;> rfl

/-- A history is put in order once, for its range and for every window. -/
theorem exists_bars_of_rows {rows : List Bar}
    (reads : tree.read (fileIn folder symbol "csv") = .ok text) (denoted : Rows text rows) :
    ∃ bars, InOrder rows bars ∧
      loadRange FileTree.access folder symbol tree = (.ok (range? bars), tree) ∧
      ∀ first last, loadWindow FileTree.access folder symbol first last tree =
        (.ok (window first last bars), tree) := by
  refine ⟨_, inOrder_mergeSort rows, ?_, fun first last => ?_⟩
  · rw [loadRange_of_read reads, ofText_of_rows denoted]
  · rw [loadWindow_of_read reads, ofText_of_rows denoted]

/-- What keeps a range from being loaded keeps every window from it. -/
theorem loadRange_eq_error_iff (problem : Problem) (first last : Date) :
    loadRange FileTree.access folder symbol tree = (.error problem, tree) ↔
      loadWindow FileTree.access folder symbol first last tree = (.error problem, tree) := by
  rw [loadRange_eq, loadWindow_eq]
  rcases tree.load (fileIn folder symbol "csv") History.ofText _ _ with problem' | bars
  · constructor <;> (rintro ⟨⟩; rfl)
  · constructor <;> rintro ⟨⟩

/-- A window of a history that is cut between two of its days is shown as its two parts, one after
the other. The range of a history without records is none; that of any other has the number of its
records, and the windows that show all of them are those around its two dates, so the one between
them is the narrowest. What is wrong with a history is wrong with its range and with each window. -/
theorem loadWindow_cut_and_loadRange (tree : FileTree) (folder symbol : String) :
    (∀ text rows, tree.read (fileIn folder symbol "csv") = .ok text → Rows text rows →
      (∀ first middle last, first ≤ middle → middle < last → ∃ early late,
        loadWindow FileTree.access folder symbol first middle tree = (.ok early, tree) ∧
        loadWindow FileTree.access folder symbol middle.next last tree = (.ok late, tree) ∧
        loadWindow FileTree.access folder symbol first last tree = (.ok (early ++ late), tree)) ∧
      (loadRange FileTree.access folder symbol tree = (.ok none, tree) ↔ dataRecords text = []) ∧
      (dataRecords text ≠ [] → ∃ first last,
        loadRange FileTree.access folder symbol tree =
          (.ok (some (first, last, (dataRecords text).length)), tree) ∧
        ∀ first' last', ∃ shown,
          loadWindow FileTree.access folder symbol first' last' tree = (.ok shown, tree) ∧
          (shown.Perm rows ↔ first' ≤ first ∧ last ≤ last'))) ∧
    (∀ text fault, tree.read (fileIn folder symbol "csv") = .ok text → Flawed text fault →
      loadRange FileTree.access folder symbol tree = (.error (.malformedHistory fault), tree)) ∧
    ∀ problem first last, loadRange FileTree.access folder symbol tree = (.error problem, tree) ↔
      loadWindow FileTree.access folder symbol first last tree = (.error problem, tree) := by
  refine ⟨fun text rows reads denoted => ?_, fun text fault reads flawed => ?_,
    loadRange_eq_error_iff⟩
  · obtain ⟨bars, order, range, windows⟩ := exists_bars_of_rows reads denoted
    have dated := dated_of_inOrder order
    have records : (dataRecords text).length = bars.length := by
      rw [denoted.length_eq, order.perm.length_eq]
    have none_iff : range? bars = none ↔ dataRecords text = [] := by
      rw [range?_eq_none_iff, ← List.length_eq_zero_iff, ← records, List.length_eq_zero_iff]
    refine ⟨fun first middle last some_early some_late => ?_, ?_, fun some_record => ?_⟩
    · refine ⟨_, _, windows first middle, windows middle.next last, ?_⟩
      rw [windows first last, window_cut dated some_early some_late]
    · rw [range, ← none_iff]
      constructor
      · intro h
        exact Except.ok.inj (Prod.mk.inj h).1
      · intro h
        rw [h]
    · obtain ⟨⟨first, last, n⟩, found⟩ := Option.ne_none_iff_exists'.1 (mt none_iff.1 some_record)
      obtain ⟨-, -, length⟩ := range?_eq_some_iff.1 found
      refine ⟨first, last, ?_, fun first' last' => ⟨_, windows first' last', ?_⟩⟩
      · rw [range, found, records, length]
      · rw [window_perm_iff order.perm, forall_within_iff dated found]
  · rw [loadRange_of_read reads, ofText_of_flawed flawed]

/-- A window cut right after a day with a leap second, in a table that is not in order, and the range
of the table; with one more record whose amount is no number there is none. -/
theorem loadWindow_cut_after_leap_second :
    let text := "end_time,open,high,low,close,volume\n2024-01-04,1,1,1,1,1\n" ++
      "2024-01-02T23:59:60.5Z,1,1,1,1,1\n2024-01-03T00:30:00+01:00,1,1,1,100,1\n"
    let text' := text ++ "2024-01-05,1,1,1,x,1\n"
    let tree : FileTree := ⟨[(["A.csv"], .text text)]⟩
    let tree' : FileTree := ⟨[(["A.csv"], .text text')]⟩
    let day (n : Nat) := Date.ofCivil ⟨2024, 1, n⟩
    let bar (second : Int) (nanosecond : Nat) (close : Decimal) : Bar :=
      ⟨⟨second, nanosecond⟩, .one, .one, .one, close, .one⟩
    let rows := [bar 1704326400 0 .one, bar 1704239999 1500000000 .one, bar 1704238200 0 .hundred]
    (tree.read (fileIn "." "A" "csv") = .ok text ∧ Rows text rows ∧ day 2 ≤ day 2 ∧ day 2 < day 4 ∧
      ∃ early late, loadWindow FileTree.access "." "A" (day 2) (day 2) tree = (.ok early, tree) ∧
        loadWindow FileTree.access "." "A" (day 2).next (day 4) tree = (.ok late, tree) ∧
        loadWindow FileTree.access "." "A" (day 2) (day 4) tree = (.ok (early ++ late), tree)) ∧
    (dataRecords text ≠ [] ∧ ∃ first last,
      loadRange FileTree.access "." "A" tree = (.ok (some (first, last, 3)), tree) ∧
      ∀ first' last', ∃ shown,
        loadWindow FileTree.access "." "A" first' last' tree = (.ok shown, tree) ∧
        (shown.Perm rows ↔ first' ≤ first ∧ last ≤ last')) ∧
    tree'.read (fileIn "." "A" "csv") = .ok text' ∧
    Flawed text' (.invalidAmount 5 "close" "x" .noExponent) ∧
    loadRange FileTree.access "." "A" tree' =
      (.error (.malformedHistory (.invalidAmount 5 "close" "x" .noExponent)), tree') := by
  intro text text' tree tree' day bar rows
  have reads : tree.read (fileIn "." "A" "csv") = .ok text := by decide +kernel
  have reads' : tree'.read (fileIn "." "A" "csv") = .ok text' := by decide +kernel
  have read : History.rows text = .ok rows := by decide +kernel
  have flaw : History.rows text' = .error (.invalidAmount 5 "close" "x" .noExponent) := by
    decide +kernel
  rw [rows_eq] at read flaw
  have denoted : Rows text rows := bars_eq_ok_iff.1 read
  have flawed : Flawed text' (.invalidAmount 5 "close" "x" .noExponent) :=
    bars_eq_error_iff.1 flaw
  have some_record : dataRecords text ≠ [] := by decide +kernel
  have some_early : day 2 ≤ day 2 := by decide +kernel
  have some_late : day 2 < day 4 := by decide +kernel
  have count : (dataRecords text).length = 3 := by decide +kernel
  obtain ⟨cut, -, range⟩ := (loadWindow_cut_and_loadRange tree "." "A").1 text rows reads denoted
  have shown_all := range some_record
  rw [count] at shown_all
  refine ⟨⟨reads, denoted, some_early, some_late, cut _ _ _ some_early some_late⟩,
    ⟨some_record, shown_all⟩, reads', flawed, ?_⟩
  exact (loadWindow_cut_and_loadRange tree' "." "A").2.1 text' _ reads' flawed

end Backtest
