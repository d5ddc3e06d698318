/-
Trades and the record of a run. A trade is opened by a fill and closed by a later one; a record
takes at most one open trade, at its end, and refuses a call that would break that.
-/
import Backtest.Decimal.Basic

namespace Backtest

/-- A price taken at the bar of an index. -/
structure Fill where
  index : Nat
  price : Decimal
  deriving DecidableEq

/-- A long trade, without an exit as long as it is open. -/
structure Trade where
  entry : Fill
  exit : Option Fill
  deriving DecidableEq

namespace Trade

def isClosed (t : Trade) : Bool :=
  t.exit.isSome

def isOpen (t : Trade) : Bool :=
  t.exit.isNone

/-- Closed above its entry price. -/
def isProfitable (t : Trade) : Bool :=
  match t.exit with
  | some exit => decide (t.entry.price < exit.price)
  | none => false

/-- The last bar of the trade, where the series ends at `lastIndex`. -/
def lastBar (t : Trade) (lastIndex : Nat) : Nat :=
  match t.exit with
  | some exit => exit.index
  | none => lastIndex

end Trade

/-- Whether a position is held. -/
inductive Position where
  | flat
  | long
  deriving DecidableEq

def Position.text : Position → String
  | flat => "FLAT"
  | long => "LONG"

/-- The trades of a run in order, each of the same quantity. -/
structure TradeRecord where
  quantity : Decimal
  trades : List Trade
  deriving DecidableEq

namespace TradeRecord

def empty (quantity : Decimal) : TradeRecord := ⟨quantity, []⟩

/-- The trade that is still open. -/
def openTrade? (r : TradeRecord) : Option Trade :=
  r.trades.getLast?.filter Trade.isOpen

def position (r : TradeRecord) : Position :=
  match r.openTrade? with
  | some _ => .long
  | none => .flat

/-- A position is held exactly while a trade is open. -/
theorem position_eq_long_iff {r : TradeRecord} : r.position = .long ↔ r.openTrade?.isSome := by
  unfold position
  cases r.openTrade? <;> simp

/-- Open a trade, unless one is open. -/
def enter? (r : TradeRecord) (fill : Fill) : Option TradeRecord :=
  match r.openTrade? with
  | some _ => none
  | none => some { r with trades := r.trades ++ [⟨fill, none⟩] }

/-- Close the open trade, unless there is none or it was not opened at an earlier bar. -/
def exit? (r : TradeRecord) (fill : Fill) : Option TradeRecord :=
  match r.openTrade? with
  | some t =>
    if t.entry.index < fill.index then
      some { r with trades := r.trades.dropLast ++ [⟨t.entry, some fill⟩] }
    else none
  | none => none

/-- A trade can be opened exactly while none is open. -/
theorem isSome_enter? {r : TradeRecord} {fill : Fill} :
    (r.enter? fill).isSome ↔ r.openTrade? = none := by
  unfold enter?
  cases r.openTrade? <;> simp

def completed (r : TradeRecord) : List Trade :=
  r.trades.filter Trade.isClosed

def completedCount (r : TradeRecord) : Nat :=
  r.completed.length

def winningCount (r : TradeRecord) : Nat :=
  (r.completed.filter Trade.isProfitable).length

end TradeRecord

/-- A request to open or close a trade. -/
inductive Order where
  | enter (fill : Fill)
  | exit (fill : Fill)

/-- The record after an order, none if it is refused. -/
def TradeRecord.fill? (r : TradeRecord) : Order → Option TradeRecord
  | .enter fill => r.enter? fill
  | .exit fill => r.exit? fill

/-- The record after an order, unchanged if it is refused. -/
def TradeRecord.fill (r : TradeRecord) (order : Order) : TradeRecord :=
  (r.fill? order).getD r

/-- A refused order changes nothing. -/
theorem TradeRecord.fill_of_fill? {r : TradeRecord} {order : Order} (h : r.fill? order = none) :
    r.fill order = r := by
  simp [fill, h]

end Backtest
