/-
Loading a history for a window of dates. If some record has a fault, the first one is reported,
whether its date lies in the window or not; else the bars are those of the records whose dates lie
in the window, in the order of their times. So the order of the records does not matter when no two
of them have the same time.
-/
import Backtest.Proofs.Files.Loading
import Backtest.Proofs.History.Order
import Backtest.Proofs.History.Records
import Mathlib.Data.List.Perm.Basic

namespace Backtest

namespace History

/-- The records after the header. -/
def dataRecords (text : String) : List TableRecord :=
  (Table.records text).tail

/-- The number of cells of the header. -/
def headerWidth (text : String) : Nat :=
  match Table.records text with
  | [] => 0
  | header :: _ => header.cells.length

/-- The bars of the records, in the order of the table. -/
def Rows (text : String) (bars : List Bar) : Prop :=
  List.Forall₂ (Denotes (headerWidth text)) (dataRecords text) bars

/-- The fault of the first record that has one. -/
def Flawed (text : String) (fault : HistoryFault) : Prop :=
  FirstFault (headerWidth text) 1 (dataRecords text) fault

theorem rows_eq (text : String) : rows text = bars (headerWidth text) 1 (dataRecords text) := by
  unfold rows headerWidth dataRecords
  rcases Table.records text with _ | ⟨header, records⟩ <;> rfl

theorem ofText_of_rows {text : String} {bs : List Bar} (h : Rows text bs) :
    ofText text = .ok (bs.mergeSort fun a b => decide (a.time ≤ b.time)) := by
  unfold ofText
  rw [rows_eq, bars_eq_ok_iff.2 h]
  rfl

theorem ofText_of_flawed {text : String} {fault : HistoryFault} (h : Flawed text fault) :
    ofText text = .error fault := by
  unfold ofText
  rw [rows_eq, bars_eq_error_iff.2 h]
  rfl

/-- A text is either flawed or a history. -/
theorem rows_or_flawed (text : String) : (∃ bs, Rows text bs) ∨ ∃ fault, Flawed text fault := by
  rcases bars_cases (headerWidth text) (dataRecords text) 1 with ⟨bs, -, h⟩ | ⟨fault, -, h⟩
  · exact .inl ⟨bs, h⟩
  · exact .inr ⟨fault, h⟩

theorem ofText_eq_error_iff {text : String} {fault : HistoryFault} :
    ofText text = .error fault ↔ Flawed text fault := by
  refine ⟨fun h => ?_, ofText_of_flawed⟩
  rcases rows_or_flawed text with ⟨bs, rows⟩ | ⟨fault', flawed⟩
  · cases h.symm.trans (ofText_of_rows rows)
  · cases h.symm.trans (ofText_of_flawed flawed)
    exact flawed

/-- Records are read by their cells alone. -/
theorem exists_rows_of_perm {text text' : String} {bs : List Bar} (h : Rows text bs)
    (width : headerWidth text' = headerWidth text)
    (perm : ((dataRecords text').map (·.cells)).Perm ((dataRecords text).map (·.cells))) :
    ∃ bs', Rows text' bs' ∧ bs'.Perm bs := by
  let reads (cells : List String) (bar : Bar) : Prop :=
    Denotes (headerWidth text) ⟨cells, ⟨0, 0⟩⟩ bar
  have read : ∀ {record : TableRecord} {bar : Bar},
      Denotes (headerWidth text) record bar ↔ reads record.cells bar :=
    ⟨fun ⟨w, t, o, hi, l, c, v⟩ => ⟨w, t, o, hi, l, c, v⟩,
      fun ⟨w, t, o, hi, l, c, v⟩ => ⟨w, t, o, hi, l, c, v⟩⟩
  have cells : List.Forall₂ reads ((dataRecords text).map (·.cells)) bs :=
    List.forall₂_map_left_iff.2 (h.imp fun _ _ hd => read.1 hd)
  obtain ⟨bs', cells', perm'⟩ := List.perm_comp_forall₂ perm cells
  refine ⟨bs', ?_, perm'⟩
  unfold Rows
  rw [width]
  exact (List.forall₂_map_left_iff.1 cells').imp fun _ _ hr => read.2 hr

/-- Whether the date of a bar lies in the window, ends included. -/
def Within (first last : Date) (bar : Bar) : Bool :=
  decide (first ≤ bar.time.date) && decide (bar.time.date ≤ last)

end History

open History

variable {tree : FileTree} {folder symbol text : String} {first last : Date}

theorem loadWindow_of_read (h : tree.read (fileIn folder symbol "csv") = .ok text) :
    loadWindow FileTree.access folder symbol first last tree =
      (match History.ofText text with
        | .ok bars => .ok (window first last bars)
        | .error fault => .error (.malformedHistory fault), tree) := by
  rw [loadWindow_eq, FileTree.load_of_read h]
  rcases History.ofText text with fault | bars <;> rfl

/-- The window of a history that is loaded shows its rows in the order of their times. -/
theorem inOrder_of_ofText {bars : List Bar} (h : ofText text = .ok bars) (first last : Date) :
    ∃ rows, Rows text rows ∧
      InOrder (rows.filter (Within first last)) (window first last bars) := by
  rcases rows_or_flawed text with ⟨rows, denoted⟩ | ⟨fault, flawed⟩
  · cases h.symm.trans (ofText_of_rows denoted)
    exact ⟨rows, denoted, (inOrder_mergeSort rows).filter (Within first last)⟩
  · cases h.symm.trans (ofText_of_flawed flawed)

/-- Loading a window of a history reports the first record at fault, if there is one. Else it gives
the bars whose dates lie in the window, in the order of their times and those of one time in the
order of the table. Records with distinct times may come in any order: another text with the same
records under a header of the same width gives the same bars. -/
theorem loadWindow_spec (reads : tree.read (fileIn folder symbol "csv") = .ok text)
    (first last : Date) :
    (∀ fault, loadWindow FileTree.access folder symbol first last tree =
      (.error (.malformedHistory fault), tree) ↔ Flawed text fault) ∧
    (∀ shown, loadWindow FileTree.access folder symbol first last tree = (.ok shown, tree) ↔
      ∃ bars, Rows text bars ∧ InOrder (bars.filter (Within first last)) shown) ∧
    ((∃ bars, Rows text bars) ∨ ∃ fault, Flawed text fault) ∧
    ∀ (bars : List Bar) (text' : String) (tree' : FileTree),
      Rows text bars → bars.Pairwise (fun a b => a.time ≠ b.time) →
      tree'.read (fileIn folder symbol "csv") = .ok text' → headerWidth text' = headerWidth text →
      ((dataRecords text').map (·.cells)).Perm ((dataRecords text).map (·.cells)) →
      ∃ shown, loadWindow FileTree.access folder symbol first last tree = (.ok shown, tree) ∧
        loadWindow FileTree.access folder symbol first last tree' = (.ok shown, tree') := by
  have shows : ∀ {tree : FileTree} {text : String} {bars : List Bar},
      tree.read (fileIn folder symbol "csv") = .ok text → Rows text bars →
      ∃ shown, loadWindow FileTree.access folder symbol first last tree = (.ok shown, tree) ∧
        InOrder (bars.filter (Within first last)) shown := by
    intro tree text bars reads rows
    rw [loadWindow_of_read reads, ofText_of_rows rows]
    exact ⟨_, rfl, (inOrder_mergeSort bars).filter (Within first last)⟩
  have fails : ∀ {fault : HistoryFault}, Flawed text fault →
      loadWindow FileTree.access folder symbol first last tree =
        (.error (.malformedHistory fault), tree) := by
    intro fault flawed
    rw [loadWindow_of_read reads, ofText_of_flawed flawed]
  -- a text is one or the other, so an outcome of one kind excludes the other
  refine ⟨fun fault => ⟨fun h => ?_, fails⟩, fun shown => ⟨fun h => ?_, ?_⟩,
    rows_or_flawed text, ?_⟩
  · rcases rows_or_flawed text with ⟨bars, rows⟩ | ⟨fault', flawed⟩
    · obtain ⟨shown, hs, -⟩ := shows reads rows
      rw [hs] at h
      cases h
    · rw [fails flawed] at h
      cases h
      exact flawed
  · rcases rows_or_flawed text with ⟨bars, rows⟩ | ⟨fault, flawed⟩
    · obtain ⟨shown', hs, order⟩ := shows reads rows
      rw [hs] at h
      cases h
      exact ⟨bars, rows, order⟩
    · rw [fails flawed] at h
      cases h
  · rintro ⟨bars, rows, order⟩
    obtain ⟨shown', hs, order'⟩ := shows reads rows
    rw [hs, order.unique order']
  · intro bars text' tree' rows distinct reads' width perm
    obtain ⟨bars', rows', perm'⟩ := exists_rows_of_perm rows width perm
    obtain ⟨shown, hs, order⟩ := shows reads rows
    obtain ⟨shown', hs', order'⟩ := shows reads' rows'
    have same := order.of_perm (perm'.filter (Within first last)) (distinct.filter _)
    rw [order'.unique same] at hs'
    exact ⟨shown, hs, hs'⟩

/-- A record of the day after that ends on the day itself in universal time, and two records of one
instant; with one more record far outside the window, whose amount is no number, there is no history
at all. -/
theorem loadWindow_of_zones :
    let rows := "end_time,open,high,low,close,volume\n2024-01-03,1,1,1,100,1\n" ++
      "2024-01-03T00:30:00+01:00,1,1,1,1,1\n2024-01-02T01:00:00+01:00,1,1,1,100,1\n" ++
      "2024-01-02,1,1,1,1,1\n"
    let tree : FileTree := ⟨[(["A.csv"], .text rows)]⟩
    let tree' : FileTree := ⟨[(["A.csv"], .text (rows ++ "2025-01-01,1,1,1,x,1\n"))]⟩
    let day := Date.ofCivil ⟨2024, 1, 2⟩
    let bar (second : Int) (close : Decimal) : Bar := ⟨⟨second, 0⟩, .one, .one, .one, close, .one⟩
    loadWindow FileTree.access "." "A" day day tree =
      (.ok [bar 1704153600 .hundred, bar 1704153600 .one, bar 1704238200 .one], tree) ∧
    loadWindow FileTree.access "." "A" day day tree' =
      (.error (.malformedHistory (.invalidAmount 6 "close" "x" .noExponent)), tree') ∧
    Flawed (rows ++ "2025-01-01,1,1,1,x,1\n") (.invalidAmount 6 "close" "x" .noExponent) := by
  intro rows tree tree' day bar
  have reads : tree.read (fileIn "." "A" "csv") = .ok rows := by decide +kernel
  have reads' : tree'.read (fileIn "." "A" "csv") = .ok (rows ++ "2025-01-01,1,1,1,x,1\n") := by
    decide +kernel
  have read : History.rows rows = .ok [bar 1704240000 .hundred, bar 1704238200 .one,
      bar 1704153600 .hundred, bar 1704153600 .one] := by decide +kernel
  have flaw : History.rows (rows ++ "2025-01-01,1,1,1,x,1\n") =
      .error (.invalidAmount 6 "close" "x" .noExponent) := by decide +kernel
  rw [rows_eq] at read flaw
  have flawed : Flawed (rows ++ "2025-01-01,1,1,1,x,1\n")
      (.invalidAmount 6 "close" "x" .noExponent) := bars_eq_error_iff.1 flaw
  refine ⟨((loadWindow_spec reads day day).2.1 _).2 ⟨_, bars_eq_ok_iff.1 read, ?_⟩,
    ((loadWindow_spec reads' day day).1 _).2 flawed, flawed⟩
  have within : [bar 1704240000 .hundred, bar 1704238200 .one, bar 1704153600 .hundred,
      bar 1704153600 .one].filter (Within day day) =
      [bar 1704238200 .one, bar 1704153600 .hundred, bar 1704153600 .one] := by decide +kernel
  rw [within]
  refine ⟨by decide +kernel, by decide +kernel, fun time => ?_⟩
  by_cases early : (⟨1704153600, 0⟩ : Instant) = time
  · subst early
    decide +kernel
  · by_cases late : (⟨1704238200, 0⟩ : Instant) = time
    · subst late
      decide +kernel
    · simp [bar, early, late]

end Backtest
