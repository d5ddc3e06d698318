/-
Tables of comma-separated cells. A record ends at a line feed, a carriage return or both, and blank
lines are passed over. A cell that starts with a quote goes on to the next single quote and may
hold commas, line ends and doubled quotes; what follows the closing quote still belongs to it. A
quote elsewhere is a character like any other.
-/
namespace Backtest

/-- A place between two characters: lines by their line feeds, from 1, and bytes from 0. -/
structure TablePlace where
  line : Nat
  byte : Nat
  deriving DecidableEq, Repr

def TablePlace.after (p : TablePlace) (c : Char) : TablePlace :=
  ⟨if c = '\n' then p.line + 1 else p.line, p.byte + c.utf8Size⟩

/-- The cells of a record, and the place where its reading began: right after the end of the record
before it, ahead of any blank lines. -/
structure TableRecord where
  cells : List String
  place : TablePlace
  deriving DecidableEq, Repr

namespace Table

/-- Where the next character stands. -/
inductive Cell where
  /-- Before a record. -/
  | between
  /-- At the start of a cell. -/
  | starting
  | plain
  | quoted
  /-- After a quote in a quoted cell, which closes it unless another quote follows. -/
  | closing
  deriving DecidableEq

/-- What has been read of a record: its place, its cells and the characters of the current one,
both in reverse. -/
structure Partial where
  place : TablePlace
  cells : List String
  cell : List Char

def Partial.start (place : TablePlace) : Partial := ⟨place, [], []⟩

def Partial.add (p : Partial) (c : Char) : Partial := { p with cell := c :: p.cell }

def Partial.endCell (p : Partial) : Partial :=
  ⟨p.place, String.ofList p.cell.reverse :: p.cells, []⟩

def Partial.record (p : Partial) : TableRecord :=
  ⟨p.endCell.cells.reverse, p.place⟩

def isLineEnd (c : Char) : Bool := c == '\n' || c == '\r'

/-- Read the records from a place on. -/
def readFrom : List Char → Cell → TablePlace → Partial → List TableRecord
  | [], .between, _, _ => []
  | [], _, _, p => [p.record]
  | c :: rest, cell, here, p =>
    let next := here.after c
    match cell with
    | .quoted =>
      if c = '"' then readFrom rest .closing next p else readFrom rest .quoted next (p.add c)
    | .between =>
      if isLineEnd c then readFrom rest .between next p
      else if c = '"' then readFrom rest .quoted next p
      else if c = ',' then readFrom rest .starting next p.endCell
      else readFrom rest .plain next (p.add c)
    | cell =>
      if c = ',' then readFrom rest .starting next p.endCell
      else if isLineEnd c then p.record :: readFrom rest .between next (.start next)
      else if c = '"' ∧ cell = .starting then readFrom rest .quoted next p
      else if c = '"' ∧ cell = .closing then readFrom rest .quoted next (p.add c)
      else readFrom rest .plain next (p.add c)

/-- The records of a text, in which a byte order mark at the start is passed over. -/
def records (text : String) : List TableRecord :=
  match text.toList with
  | '\uFEFF' :: rest => readFrom rest .between ⟨1, 3⟩ (.start ⟨1, 0⟩)
  | text => readFrom text .between ⟨1, 0⟩ (.start ⟨1, 0⟩)

end Table
end Backtest
