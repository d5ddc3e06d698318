/-
The file of a report: a JSON record with one member on each line and a line feed at the end.
Amounts are texts, so that no place is lost; `Report.ofFileText?` reads the file back.
-/
import Backtest.Decimal.Reader
import Backtest.Decimal.Text
import Backtest.Equity.Report
import Backtest.Json.Draft
import Backtest.Json.Printer

namespace Backtest.Report

/-- The members of the stored form, in the order in which they are written. -/
def members (r : Report) : List (String × Json) :=
  [("strategyName", .text r.strategy),
    ("symbol", .text r.symbol),
    ("totalTrades", .ofNat r.trades),
    ("totalProfitLoss", .text r.profit.text),
    ("totalReturnPercent", .text r.returnPercent.text),
    ("winRatePercent", .text r.winRatePercent.text),
    ("maxDrawdownPercent", .text r.drawdownPercent.text)]

def json (r : Report) : Json := .record r.members

/-- The content of the file of a report. -/
def fileText (r : Report) : String :=
  String.ofList (Json.blockChars r.members ++ ['\n'])

/-- The text of a member. -/
def textMember? (members : List (String × Json)) (name : String) : Option String :=
  match Json.member? members name with
  | some (.text s) => some s
  | _ => none

/-- The amount that a member holds as a text. -/
def amountMember? (members : List (String × Json)) (name : String) : Option Decimal :=
  (textMember? members name).bind Decimal.ofText?

/-- The number of a member that counts something. -/
def countMember? (members : List (String × Json)) (name : String) : Option Nat :=
  match Json.member? members name with
  | some (.number (.whole n)) => if 0 ≤ n then some n.toNat else none
  | _ => none

/-- The report with the given members, in any order. -/
def ofMembers? (members : List (String × Json)) : Option Report := do
  return {
    strategy := ← textMember? members "strategyName"
    symbol := ← textMember? members "symbol"
    trades := ← countMember? members "totalTrades"
    profit := ← amountMember? members "totalProfitLoss"
    returnPercent := ← amountMember? members "totalReturnPercent"
    winRatePercent := ← amountMember? members "winRatePercent"
    drawdownPercent := ← amountMember? members "maxDrawdownPercent" }

/-- The report in the content of a file. -/
def ofFileText? (text : String) : Option Report :=
  match Json.ofText text with
  | .ok (.record members) => ofMembers? members
  | _ => none

end Backtest.Report
