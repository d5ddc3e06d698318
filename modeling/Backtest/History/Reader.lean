/-
Price histories: a table with one bar in each record under a header. The first fault of the table
counts, in the order of its records; in a record the number of cells comes first and then the
columns from left to right. The bars come in the order of their times, and those of one time in
the order of the table.
-/
import Backtest.Calendar.Reader
import Backtest.Decimal.Reader
import Backtest.History.Table
import Backtest.Series.Basic

namespace Backtest

/-- What is wrong with a history. Rows are counted from the header, which is the first. -/
inductive HistoryFault where
  | cellCount (record : Nat) (place : TablePlace) (found header : Nat)
  | missingColumn (row : Nat) (name : String)
  | invalidTime (row : Nat)
  | invalidAmount (row : Nat) (name text : String) (error : Decimal.ReadError)
  deriving DecidableEq

def HistoryFault.message : HistoryFault → String
  | cellCount record place found header =>
    s!"CSV parse error: CSV error: record {record} (line: {place.line}, byte: {place.byte}): " ++
      s!"found record with {found} fields, but the previous record has {header} fields"
  | missingColumn row name => s!"row {row}: missing {name} column"
  | invalidTime row => s!"row {row}: invalid end_time"
  | invalidAmount row name text error =>
    s!"row {row}: invalid {name} value '{text}': {error.message}"

namespace History

/-- The trimmed cell of a column. -/
def column (row : Nat) (cells : List String) (index : Nat) (name : String) :
    Except HistoryFault String :=
  match cells[index]? with
  | some cell => .ok (Text.trim cell)
  | none => .error (.missingColumn row name)

def amount (row : Nat) (cells : List String) (index : Nat) (name : String) :
    Except HistoryFault Decimal := do
  let text ← column row cells index name
  match Decimal.read text.toList with
  | .ok d => .ok d
  | .error e => .error (.invalidAmount row name text e)

/-- The instant that a text denotes: the start of a date, or a date with its time of day. -/
def time? (text : String) : Option Instant :=
  match Date.ofText? text with
  | some date => some (.ofDate date)
  | none => Instant.ofText? text

/-- The bar of a record with the given row number. -/
def bar (row : Nat) (cells : List String) : Except HistoryFault Bar := do
  let text ← column row cells 0 "end_time"
  match time? text with
  | none => .error (.invalidTime row)
  | some time =>
    let opening ← amount row cells 1 "open"
    let high ← amount row cells 2 "high"
    let low ← amount row cells 3 "low"
    let close ← amount row cells 4 "close"
    let volume ← amount row cells 5 "volume"
    return ⟨time, opening, high, low, close, volume⟩

/-- The bars of the records after a header of `width` cells; the first is record `index`. -/
def bars (width : Nat) (index : Nat) : List TableRecord → Except HistoryFault (List Bar)
  | [] => .ok []
  | record :: rest =>
    if record.cells.length ≠ width then
      .error (.cellCount index record.place record.cells.length width)
    else do
      let bar ← bar (index + 1) record.cells
      let bars ← bars width (index + 1) rest
      return bar :: bars

/-- The bars of a table, in the order of the table. -/
def rows (text : String) : Except HistoryFault (List Bar) :=
  match Table.records text with
  | [] => .ok []
  | header :: rest => bars header.cells.length 1 rest

/-- The bars of a table, in the order of their times. -/
def ofText (text : String) : Except HistoryFault (List Bar) := do
  let bars ← rows text
  return bars.mergeSort fun a b => decide (a.time ≤ b.time)

/-- The bars whose dates lie in a window, ends included. -/
def window (first last : Date) (bars : List Bar) : List Bar :=
  bars.filter fun b => decide (first ≤ b.time.date) && decide (b.time.date ≤ last)

/-- The first and the last date and the number of bars, none without bars. -/
def range? (bars : List Bar) : Option (Date × Date × Nat) := do
  let first ← bars.head?
  let last ← bars.getLast?
  return (first.time.date, last.time.date, bars.length)

end History
end Backtest
