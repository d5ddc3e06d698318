/-
A run: one strategy over one series. A run checks the cash first, then the rules, and computes
everything else from them; without bars it has a report of zeros. `Run.ofFiles` loads the strategy
and the history of a request before that.
-/
import Backtest.Equity.Report
import Backtest.Problem
import Backtest.Strategy.Prepared
import Backtest.Strategy.Reader

namespace Backtest

/-- The outcome of a run. -/
structure Run where
  report : Report
  record : TradeRecord
  curve : List Decimal

/-- An arithmetic result as part of a run. -/
def orFault {α : Type} : Except Fault α → Except Failure α
  | .ok a => .ok a
  | .error fault => .error (.fault fault)

/-- A result as part of a run, with the problem that its error is. -/
def orProblem {ε α : Type} (problem : ε → Problem) : Except ε α → Except Failure α
  | .ok a => .ok a
  | .error e => .error (.problem (problem e))

namespace Definition

/-- Make a strategy ready to run over the closes of a series. -/
def prepare (d : Definition) (closes : List Decimal) : Except Failure PreparedStrategy := do
  let rules ← orProblem .rule d.checkedRules
  orFault (PreparedStrategy.ofRules d.name rules closes)

end Definition

namespace Run

/-- Run a strategy that is ready over the series it was made ready for. -/
def ofStrategy (s : PreparedStrategy) (series : Series) (cash : Decimal)
    (policy : OpenPositionPolicy) : Except Fault Run := do
  let record ← TradeRecord.simulate s.signals cash series.closes
  let curve ← equityCurve policy record series.closes
  let report ← Report.ofRun s.name series.symbol curve record cash
  return ⟨report, record, curve⟩

/-- Run a strategy over a series. -/
def ofDefinition (d : Definition) (series : Series) (cash : Decimal)
    (policy : OpenPositionPolicy) : Except Failure Run :=
  if ¬ cash.IsPositive then .error (.problem (.invalidCash cash))
  else do
    let strategy ← d.prepare series.closes
    if series.isEmpty then return ⟨.empty d.name series.symbol, .empty .zero, []⟩
    else orFault (ofStrategy strategy series cash policy)

end Run

/-! ## Loading -/

section Loading

variable {m : Type → Type} [Monad m] (files : FileAccess m)

/-- The strategy in the file at a path; its identifier is the name of the file without extension. -/
def loadStrategyFile (path : String) : m (Except Problem Definition) := do
  let id := String.ofList ((Path.stem? path.toList).getD [])
  match ← files.read path with
  | .error e => return .error (.strategy id (.unreadable path e))
  | .ok text =>
    match Definition.ofText id text with
    | .error e => return .error (.strategy id (.malformed e))
    | .ok d => return .ok d

/-- The file in a folder that has the given name and extension. -/
def fileIn (folder name extension : String) : String :=
  String.ofList (Path.join folder.toList (name ++ "." ++ extension).toList)

/-- The strategy with an identifier. -/
def loadStrategy (folder id : String) : m (Except Problem Definition) :=
  loadStrategyFile files (fileIn folder id "json")

/-- All bars of a symbol, in the order of their times. -/
def loadHistory (folder symbol : String) : m (Except Problem (List Bar)) := do
  let path := fileIn folder symbol "csv"
  match ← files.read path with
  | .error e => return .error (.unreadableHistory path e)
  | .ok text =>
    match History.ofText text with
    | .error fault => return .error (.malformedHistory fault)
    | .ok bars => return .ok bars

/-- The bars of a symbol in a window of dates. -/
def loadWindow (folder symbol : String) (first last : Date) : m (Except Problem (List Bar)) := do
  return (← loadHistory files folder symbol).map (History.window first last)

/-- The dates that the history of a symbol spans, and the number of its bars. -/
def loadRange (folder symbol : String) : m (Except Problem (Option (Date × Date × Nat))) := do
  return (← loadHistory files folder symbol).map History.range?

/-- Load the strategy and the history of a request and run it. -/
def Run.ofFiles (strategyFolder dataFolder : String) (request : RunRequest)
    (policy : OpenPositionPolicy) : m (Except Failure Run) := do
  match ← loadStrategy files strategyFolder request.strategyId with
  | .error problem => return .error (.problem problem)
  | .ok definition =>
    match ← loadWindow files dataFolder request.symbol request.first request.last with
    | .error problem => return .error (.problem problem)
    | .ok bars =>
      match Series.ofBars? request.symbol bars with
      | .error fault => return .error (.problem (.invalidSeries request.symbol fault))
      | .ok series => return ofDefinition definition series request.cash policy

end Loading
end Backtest
