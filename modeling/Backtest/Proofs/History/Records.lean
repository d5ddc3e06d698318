/-
Which records make up a history and what is wrong with the others. A record denotes a bar when it
has as many cells as the header and each column can be read (`Denotes`); any other record has
exactly one fault (`RecordFault`): its number of cells, or else its first column that is missing or
cannot be read. Reading the records gives all their bars or the fault of the first record that has
one.
-/
import Backtest.History.Reader
import Backtest.Proofs.Chain
import Mathlib.Data.List.Forall2

namespace Backtest.History

/-! ## Records -/

/-- The columns of a record, in order. -/
def columnNames : List String := ["end_time", "open", "high", "low", "close", "volume"]

/-- The time in the first cell. -/
def TimeAt (cells : List String) (time : Instant) : Prop :=
  ∃ cell, cells[0]? = some cell ∧ time? (Text.trim cell) = some time

/-- The amount in a cell. -/
def AmountAt (cells : List String) (index : Nat) (amount : Decimal) : Prop :=
  ∃ cell, cells[index]? = some cell ∧ Decimal.read (Text.trim cell).toList = .ok amount

/-- The cell of a column is there and can be read: as a time in the first column, as an amount in
the others. -/
def Readable (cells : List String) (index : Nat) : Prop :=
  if index = 0 then ∃ time, TimeAt cells time else ∃ amount, AmountAt cells index amount

/-- The record has the given width and its columns are those of the bar. -/
structure Denotes (width : Nat) (record : TableRecord) (bar : Bar) : Prop where
  width : record.cells.length = width
  time : TimeAt record.cells bar.time
  opening : AmountAt record.cells 1 bar.opening
  high : AmountAt record.cells 2 bar.high
  low : AmountAt record.cells 3 bar.low
  close : AmountAt record.cells 4 bar.close
  volume : AmountAt record.cells 5 bar.volume

/-- What is wrong with a record under a header of the given width, by its number among the records.
The header is the first row, so its row comes one later. -/
inductive RecordFault (width number : Nat) (record : TableRecord) : HistoryFault → Prop
  | width : record.cells.length ≠ width →
      RecordFault width number record
        (.cellCount number record.place record.cells.length width)
  | missing {index : Nat} {name : String} : record.cells.length = width →
      (∀ i < index, Readable record.cells i) → columnNames[index]? = some name →
      record.cells[index]? = none →
      RecordFault width number record (.missingColumn (number + 1) name)
  | time {cell : String} : record.cells.length = width → record.cells[0]? = some cell →
      time? (Text.trim cell) = none →
      RecordFault width number record (.invalidTime (number + 1))
  | amount {index : Nat} {name cell : String} {error : Decimal.ReadError} :
      record.cells.length = width → 0 < index → (∀ i < index, Readable record.cells i) →
      columnNames[index]? = some name → record.cells[index]? = some cell →
      Decimal.read (Text.trim cell).toList = .error error →
      RecordFault width number record (.invalidAmount (number + 1) name (Text.trim cell) error)

variable {width number row index : Nat} {record : TableRecord} {cells : List String}

/-! ## Columns -/

theorem TimeAt.unique {time time' : Instant} (h : TimeAt cells time) (h' : TimeAt cells time') :
    time = time' := by
  obtain ⟨cell, hc, ht⟩ := h
  obtain ⟨cell', hc', ht'⟩ := h'
  rw [hc] at hc'
  cases hc'
  rw [ht] at ht'
  exact Option.some.inj ht'

theorem AmountAt.unique {amount amount' : Decimal} (h : AmountAt cells index amount)
    (h' : AmountAt cells index amount') : amount = amount' := by
  obtain ⟨cell, hc, ht⟩ := h
  obtain ⟨cell', hc', ht'⟩ := h'
  rw [hc] at hc'
  cases hc'
  rw [ht] at ht'
  exact Except.ok.inj ht'

theorem readable_zero_iff : Readable cells 0 ↔ ∃ time, TimeAt cells time := by
  simp [Readable]

theorem readable_iff (h : 0 < index) :
    Readable cells index ↔ ∃ amount, AmountAt cells index amount := by
  simp [Readable, Nat.ne_of_gt h]

theorem Readable.not_missing (h : Readable cells index) : cells[index]? ≠ none := by
  unfold Readable at h
  split at h
  · next zero =>
    obtain ⟨_, cell, hc, -⟩ := h
    rw [zero, hc]
    exact Option.some_ne_none cell
  · obtain ⟨_, cell, hc, -⟩ := h
    rw [hc]
    exact Option.some_ne_none cell

theorem not_readable_of_time {cell : String} (hc : cells[0]? = some cell)
    (ht : time? (Text.trim cell) = none) : ¬ Readable cells 0 := by
  rw [readable_zero_iff]
  rintro ⟨time, cell', hc', ht'⟩
  rw [hc] at hc'
  cases hc'
  rw [ht] at ht'
  cases ht'

theorem not_readable_of_amount {cell : String} {error : Decimal.ReadError} (hi : 0 < index)
    (hc : cells[index]? = some cell)
    (ht : Decimal.read (Text.trim cell).toList = .error error) : ¬ Readable cells index := by
  rw [readable_iff hi]
  rintro ⟨amount, cell', hc', ht'⟩
  rw [hc] at hc'
  cases hc'
  rw [ht] at ht'
  cases ht'

theorem Denotes.readable {bar : Bar} (h : Denotes width record bar) {name : String}
    (hn : columnNames[index]? = some name) : Readable record.cells index := by
  match index, hn with
  | 0, _ => exact readable_zero_iff.2 ⟨_, h.time⟩
  | 1, _ => exact (readable_iff (by decide)).2 ⟨_, h.opening⟩
  | 2, _ => exact (readable_iff (by decide)).2 ⟨_, h.high⟩
  | 3, _ => exact (readable_iff (by decide)).2 ⟨_, h.low⟩
  | 4, _ => exact (readable_iff (by decide)).2 ⟨_, h.close⟩
  | 5, _ => exact (readable_iff (by decide)).2 ⟨_, h.volume⟩
  | _ + 6, hn => cases hn

/-- A record denotes one bar at most. -/
theorem Denotes.unique {bar bar' : Bar} (h : Denotes width record bar)
    (h' : Denotes width record bar') : bar = bar' := by
  obtain ⟨time, opening, high, low, close, volume⟩ := bar
  obtain ⟨time', opening', high', low', close', volume'⟩ := bar'
  obtain rfl : time = time' := h.time.unique h'.time
  obtain rfl : opening = opening' := h.opening.unique h'.opening
  obtain rfl : high = high' := h.high.unique h'.high
  obtain rfl : low = low' := h.low.unique h'.low
  obtain rfl : close = close' := h.close.unique h'.close
  obtain rfl : volume = volume' := h.volume.unique h'.volume
  rfl

/-- A record that denotes a bar has no fault. -/
theorem Denotes.not_fault {bar : Bar} {fault : HistoryFault} (h : Denotes width record bar) :
    ¬ RecordFault width number record fault := by
  intro hf
  cases hf with
  | width hw => exact hw h.width
  | missing _ _ hn hc => exact (h.readable hn).not_missing hc
  | time _ hc ht => exact not_readable_of_time hc ht (readable_zero_iff.2 ⟨_, h.time⟩)
  | amount _ hi _ hn hc ht => exact not_readable_of_amount hi hc ht (h.readable hn)

/-- The first column that cannot be read is one. -/
theorem eq_of_first_unreadable {i j : Nat} (hi : ¬ Readable cells i) (hj : ¬ Readable cells j)
    (before : ∀ k < i, Readable cells k) (before' : ∀ k < j, Readable cells k) : i = j := by
  rcases Nat.lt_trichotomy i j with hlt | rfl | hlt
  · exact absurd (before' i hlt) hi
  · rfl
  · exact absurd (before j hlt) hj

/-- A record has one fault at most. -/
theorem RecordFault.unique {fault fault' : HistoryFault}
    (h : RecordFault width number record fault) (h' : RecordFault width number record fault') :
    fault = fault' := by
  have none_before : ∀ k < 0, Readable record.cells k := fun k hk => absurd hk (Nat.not_lt_zero k)
  cases h with
  | width hw =>
    cases h' with
    | width => rfl
    | missing hw' | time hw' | amount hw' => exact absurd hw' hw
  | missing hw before hn hc =>
    have bad : ¬ Readable record.cells _ := fun hr => hr.not_missing hc
    cases h' with
    | width hw' => exact absurd hw hw'
    | missing _ before' hn' hc' =>
      obtain rfl := eq_of_first_unreadable bad (fun hr => hr.not_missing hc') before before'
      rw [hn] at hn'
      cases hn'
      rfl
    | time _ hc' ht' =>
      obtain rfl := eq_of_first_unreadable bad (not_readable_of_time hc' ht') before none_before
      rw [hc] at hc'
      cases hc'
    | amount _ hi' before' _ hc' ht' =>
      obtain rfl :=
        eq_of_first_unreadable bad (not_readable_of_amount hi' hc' ht') before before'
      rw [hc] at hc'
      cases hc'
  | time hw hc ht =>
    have bad := not_readable_of_time hc ht
    cases h' with
    | width hw' => exact absurd hw hw'
    | missing _ before' _ hc' =>
      obtain rfl :=
        eq_of_first_unreadable bad (fun hr => hr.not_missing hc') none_before before'
      rw [hc] at hc'
      cases hc'
    | time => rfl
    | amount _ hi' before' => exact absurd (before' 0 hi') bad
  | amount hw hi before hn hc ht =>
    have bad := not_readable_of_amount hi hc ht
    cases h' with
    | width hw' => exact absurd hw hw'
    | missing _ before' _ hc' =>
      obtain rfl := eq_of_first_unreadable bad (fun hr => hr.not_missing hc') before before'
      rw [hc] at hc'
      cases hc'
    | time _ hc' ht' => exact absurd (before 0 hi) (not_readable_of_time hc' ht')
    | amount _ hi' before' hn' hc' ht' =>
      obtain rfl :=
        eq_of_first_unreadable bad (not_readable_of_amount hi' hc' ht') before before'
      rw [hn] at hn'
      rw [hc] at hc'
      cases hn'
      cases hc'
      rw [ht] at ht'
      cases ht'
      rfl

/-! ## Reading a record -/

theorem amount_of_amountAt {d : Decimal} (h : AmountAt cells index d) (row : Nat) (name : String) :
    amount row cells index name = .ok d := by
  obtain ⟨cell, hc, hr⟩ := h
  unfold amount column
  rw [hc]
  simp only [bind, Except.bind, hr]

theorem amount_of_missing (hc : cells[index]? = none) (row : Nat) (name : String) :
    amount row cells index name = .error (.missingColumn row name) := by
  unfold amount column
  rw [hc]
  rfl

theorem amount_of_error {cell : String} {error : Decimal.ReadError} (hc : cells[index]? = some cell)
    (hr : Decimal.read (Text.trim cell).toList = .error error) (row : Nat) (name : String) :
    amount row cells index name = .error (.invalidAmount row name (Text.trim cell) error) := by
  unfold amount column
  rw [hc]
  simp only [bind, Except.bind, hr]

/-- A column has an amount, or it is the fault of its record if the columns before it can be
read. -/
theorem amount_cases (hw : record.cells.length = width) (hi : 0 < index) {name : String}
    (hn : columnNames[index]? = some name) (before : ∀ i < index, Readable record.cells i)
    (number : Nat) :
    (∃ d, amount (number + 1) record.cells index name = .ok d ∧ AmountAt record.cells index d ∧
      ∀ i < index + 1, Readable record.cells i) ∨
    ∃ fault, amount (number + 1) record.cells index name = .error fault ∧
      RecordFault width number record fault := by
  rcases hc : record.cells[index]? with _ | cell
  · exact .inr ⟨_, amount_of_missing hc _ _, .missing hw before hn hc⟩
  · rcases hr : Decimal.read (Text.trim cell).toList with error | d
    · exact .inr ⟨_, amount_of_error hc hr _ _, .amount hw hi before hn hc hr⟩
    · have there : AmountAt record.cells index d := ⟨cell, hc, hr⟩
      refine .inl ⟨d, amount_of_amountAt there _ _, there, fun i hlt => ?_⟩
      rcases Nat.lt_succ_iff_lt_or_eq.1 hlt with hlt | rfl
      · exact before i hlt
      · exact (readable_iff hi).2 ⟨d, there⟩

/-- A chain that goes on with the amount of a column gives a bar or a fault of the record, if what
comes after the amount does. -/
theorem amount_bind_cases (hw : record.cells.length = width) (hi : 0 < index) {name : String}
    (hn : columnNames[index]? = some name) (before : ∀ i < index, Readable record.cells i)
    {next : Decimal → Except HistoryFault Bar}
    (rest : ∀ d, AmountAt record.cells index d → (∀ i < index + 1, Readable record.cells i) →
      (∃ b, next d = .ok b ∧ Denotes width record b) ∨
      ∃ fault, next d = .error fault ∧ RecordFault width number record fault) :
    (∃ b, (amount (number + 1) record.cells index name >>= next) = .ok b ∧
      Denotes width record b) ∨
    ∃ fault, (amount (number + 1) record.cells index name >>= next) = .error fault ∧
      RecordFault width number record fault := by
  rcases amount_cases hw hi hn before number with ⟨d, hd, there, readable⟩ | ⟨fault, he, hf⟩
  · rw [hd]
    exact rest d there readable
  · rw [he]
    exact .inr ⟨fault, rfl, hf⟩

/-- The columns after the time, in order. -/
theorem bar_of_time {time : Instant} (h : TimeAt cells time) (row : Nat) :
    bar row cells = (do
      let opening ← amount row cells 1 "open"
      let high ← amount row cells 2 "high"
      let low ← amount row cells 3 "low"
      let close ← amount row cells 4 "close"
      let volume ← amount row cells 5 "volume"
      return ⟨time, opening, high, low, close, volume⟩) := by
  obtain ⟨cell, hc, ht⟩ := h
  unfold bar column
  rw [hc]
  simp only [bind, Except.bind, ht]

/-- Reading a record of the right width gives its bar or its fault. -/
theorem bar_cases (hw : record.cells.length = width) (number : Nat) :
    (∃ b, bar (number + 1) record.cells = .ok b ∧ Denotes width record b) ∨
    ∃ fault, bar (number + 1) record.cells = .error fault ∧
      RecordFault width number record fault := by
  rcases hc : record.cells[0]? with _ | cell
  · refine .inr ⟨.missingColumn (number + 1) "end_time", ?_, .missing hw (by simp) rfl hc⟩
    unfold bar column
    rw [hc]
    rfl
  rcases ht : time? (Text.trim cell) with _ | time
  · refine .inr ⟨.invalidTime (number + 1), ?_, .time hw hc ht⟩
    unfold bar column
    rw [hc]
    simp only [bind, Except.bind, ht]
  have hT : TimeAt record.cells time := ⟨cell, hc, ht⟩
  rw [bar_of_time hT]
  have r₁ : ∀ i < 1, Readable record.cells i := by
    intro i hi
    obtain rfl : i = 0 := by omega
    exact readable_zero_iff.2 ⟨time, hT⟩
  -- column by column: the first that cannot be read ends it
  refine amount_bind_cases hw (by decide) rfl r₁ fun opening h₁ r₂ => ?_
  refine amount_bind_cases hw (by decide) rfl r₂ fun high h₂ r₃ => ?_
  refine amount_bind_cases hw (by decide) rfl r₃ fun low h₃ r₄ => ?_
  refine amount_bind_cases hw (by decide) rfl r₄ fun close h₄ r₅ => ?_
  refine amount_bind_cases hw (by decide) rfl r₅ fun volume h₅ _ => ?_
  exact .inl ⟨_, rfl, hw, hT, h₁, h₂, h₃, h₄, h₅⟩

/-! ## Reading all records -/

/-- The fault of the first record that has one, where `number` is that of the first record. All
records before it denote bars. -/
def FirstFault (width number : Nat) (records : List TableRecord) (fault : HistoryFault) : Prop :=
  ∃ before record after, records = before ++ record :: after ∧
    (∀ r ∈ before, ∃ bar, Denotes width r bar) ∧
    RecordFault width (number + before.length) record fault

theorem firstFault_cons_iff {records : List TableRecord} {fault : HistoryFault} :
    FirstFault width number (record :: records) fault ↔
      RecordFault width number record fault ∨
      (∃ bar, Denotes width record bar) ∧ FirstFault width (number + 1) records fault := by
  constructor
  · rintro ⟨_ | ⟨first, before⟩, r, after, split, sound, hf⟩
    · cases split
      exact .inl hf
    · cases split
      refine .inr ⟨sound _ (List.mem_cons_self ..), before, r, after, rfl,
        fun r hr => sound r (List.mem_cons_of_mem _ hr), ?_⟩
      rwa [Nat.add_right_comm, Nat.add_assoc]
  · rintro (hf | ⟨sound, before, r, after, rfl, sounds, hf⟩)
    · exact ⟨[], record, records, rfl, fun _ hr => absurd hr List.not_mem_nil, hf⟩
    · refine ⟨record :: before, r, after, rfl, ?_, ?_⟩
      · rintro r' hr'
        rcases List.mem_cons.1 hr' with rfl | hr'
        · exact sound
        · exact sounds r' hr'
      · rwa [List.length_cons, ← Nat.add_assoc, Nat.add_right_comm]

/-- Reading gives the bars of all records or the first fault, and one of them exists. -/
theorem bars_cases (width : Nat) : ∀ (records : List TableRecord) (number : Nat),
    (∃ bs, bars width number records = .ok bs ∧ List.Forall₂ (Denotes width) records bs) ∨
    ∃ fault, bars width number records = .error fault ∧ FirstFault width number records fault
  | [], _ => .inl ⟨[], rfl, .nil⟩
  | record :: records, number => by
    by_cases hw : record.cells.length = width
    · have eq : bars width number (record :: records) = (do
          let b ← bar (number + 1) record.cells
          let bs ← bars width (number + 1) records
          return b :: bs) := if_neg (not_not.2 hw)
      rw [eq]
      rcases bar_cases hw number with ⟨b, hb, denotes⟩ | ⟨fault, hb, hf⟩
      · rw [hb]
        rcases bars_cases width records (number + 1) with ⟨bs, hbs, all⟩ | ⟨fault, hbs, hf⟩
        · exact .inl ⟨b :: bs, by rw [hbs]; rfl, .cons denotes all⟩
        · exact .inr ⟨fault, by rw [hbs]; rfl, firstFault_cons_iff.2 (.inr ⟨⟨b, denotes⟩, hf⟩)⟩
      · exact .inr ⟨fault, by rw [hb]; rfl, firstFault_cons_iff.2 (.inl hf)⟩
    · exact .inr ⟨_, if_pos hw, firstFault_cons_iff.2 (.inl (.width hw))⟩

theorem FirstFault.unique {records : List TableRecord} {fault fault' : HistoryFault}
    (h : FirstFault width number records fault) (h' : FirstFault width number records fault') :
    fault = fault' := by
  induction records generalizing number with
  | nil =>
    obtain ⟨_, _, _, split, -⟩ := h
    exact absurd split.symm (by simp)
  | cons record records ih =>
    rcases firstFault_cons_iff.1 h with hf | ⟨⟨_, hd⟩, hf⟩ <;>
      rcases firstFault_cons_iff.1 h' with hf' | ⟨⟨_, hd'⟩, hf'⟩
    · exact hf.unique hf'
    · exact absurd hf hd'.not_fault
    · exact absurd hf' hd.not_fault
    · exact ih hf hf'

/-- Records that all denote bars have no first fault. -/
theorem not_firstFault {records : List TableRecord} {bs : List Bar} {fault : HistoryFault}
    (h : List.Forall₂ (Denotes width) records bs) : ¬ FirstFault width number records fault := by
  induction h generalizing number with
  | nil =>
    rintro ⟨_, _, _, split, -⟩
    exact absurd split.symm (by simp)
  | cons hd _ ih =>
    intro hf
    rcases firstFault_cons_iff.1 hf with hf | ⟨-, hf⟩
    · exact hd.not_fault hf
    · exact ih hf

theorem bars_eq_ok_iff {records : List TableRecord} {bs : List Bar} :
    bars width number records = .ok bs ↔ List.Forall₂ (Denotes width) records bs := by
  rcases bars_cases width records number with ⟨bs', hb, all⟩ | ⟨fault, hb, hf⟩
  · rw [hb]
    constructor
    · rintro h
      cases h
      exact all
    · intro all'
      have one : Relator.RightUnique (Denotes width) := fun _ _ _ => Denotes.unique
      exact congrArg Except.ok (one.forall₂ all all')
  · rw [hb]
    constructor
    · intro h
      cases h
    · intro all
      exact absurd hf (not_firstFault all)

theorem bars_eq_error_iff {records : List TableRecord} {fault : HistoryFault} :
    bars width number records = .error fault ↔ FirstFault width number records fault := by
  rcases bars_cases width records number with ⟨bs, hb, all⟩ | ⟨fault', hb, hf⟩
  · rw [hb]
    constructor
    · intro h
      cases h
    · intro hf
      exact absurd hf (not_firstFault all)
  · rw [hb]
    constructor
    · intro h
      cases h
      exact hf
    · intro hf'
      exact congrArg Except.error (hf.unique hf')

end Backtest.History
