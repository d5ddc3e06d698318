/-
The equity curve of a record: the value of one unit of capital at each bar. It is flat while no
trade is held. While one is held it is the value before the entry, times the close, over the entry
price; the value at the last bar of the trade carries on.
-/
import Backtest.Trade.Record
import Backtest.Decimal.Arithmetic
import Backtest.Text.Case

namespace Backtest

/-- What a trade that is still open at the last bar does to the curve. -/
inductive OpenPositionPolicy where
  /-- It is left out. -/
  | exclude
  /-- It is valued at each close. -/
  | markToMarket
  deriving DecidableEq

namespace OpenPositionPolicy

def text : OpenPositionPolicy → String
  | exclude => "exclude"
  | markToMarket => "mark_to_market"

/-- The policy that a text names, or the trimmed text in lower case. -/
def ofText (text : String) : Except String OpenPositionPolicy :=
  let name := Text.lower (Text.trim text)
  if name = "exclude" then .ok exclude
  else if name = "mark_to_market" then .ok markToMarket
  else .error name

/-- The wording for a text that names no policy. -/
def unknownMessage (name : String) : String :=
  s!"unknown open position policy '{name}', expected exclude or mark_to_market"

end OpenPositionPolicy

/-- A trade being held: the equity before it, its entry price and its last bar. -/
structure Holding where
  base : Decimal
  price : Decimal
  lastBar : Nat

/-- The value of a held trade at a close. -/
def Holding.value (h : Holding) (close : Decimal) : Except Fault Decimal := do
  let grown ← h.base.mul close
  grown.div h.price

/-- The trade held at bar `index` and the trades ahead: if none is held, the next one is taken up at
its entry, with the equity so far as its base. -/
def takeUp (lastIndex index : Nat) (equity : Decimal) :
    Option Holding → List Trade → Option Holding × List Trade
  | none, t :: later =>
    if t.entry.index = index then (some ⟨equity, t.entry.price, t.lastBar lastIndex⟩, later)
    else (none, t :: later)
  | held, ahead => (held, ahead)

/-- The curve from bar `index` on, after the equity so far, with the trade held and those ahead. -/
def equityFrom (lastIndex : Nat) (index : Nat) (equity : Decimal) (held : Option Holding)
    (ahead : List Trade) : List Decimal → Except Fault (List Decimal)
  | [] => .ok []
  | close :: rest =>
    match takeUp lastIndex index equity held ahead with
    | (none, ahead) => do
      let values ← equityFrom lastIndex (index + 1) equity none ahead rest
      return equity :: values
    | (some h, ahead) => do
      let equity ← h.value close
      let held := if h.lastBar ≤ index then none else some h
      let values ← equityFrom lastIndex (index + 1) equity held ahead rest
      return equity :: values

/-- The trades of the record that the curve shows. -/
def TradeRecord.shown (r : TradeRecord) (policy : OpenPositionPolicy) : List Trade :=
  r.trades.filter fun t => t.isClosed || policy == .markToMarket

/-- The equity curve over the closes. -/
def equityCurve (policy : OpenPositionPolicy) (r : TradeRecord) (closes : List Decimal) :
    Except Fault (List Decimal) :=
  equityFrom (closes.length - 1) 0 .one none (r.shown policy) closes

end Backtest
