/-
Everything that can keep a run from giving a result, with its wording and the exit code of the
command line.
-/
import Backtest.Files.Tree
import Backtest.History.Reader
import Backtest.Json.Shape
import Backtest.Rule.Problem
import Backtest.Settings.Run

namespace Backtest

/-- Why a strategy cannot be loaded. -/
inductive StrategyFault where
  | unreadable (path : String) (error : FileError)
  | malformed (error : DecodeError)
  /-- The path given for it does not have the extension `json`. -/
  | noStrategyFile

def StrategyFault.message : StrategyFault → String
  | unreadable path error => s!"failed to read {path}: {error.message}"
  | malformed error => s!"invalid strategy JSON: {error.message}"
  | noStrategyFile => "strategy file must have a .json extension"

inductive Problem where
  | rule (problem : PlacedProblem)
  | invalidCash (cash : Decimal)
  | noBar (index length : Nat)
  | invalidSeries (symbol : String) (fault : SeriesFault)
  | unreadableHistory (path : String) (error : FileError)
  | malformedHistory (fault : HistoryFault)
  | strategy (id : String) (fault : StrategyFault)
  | unreadableSettings (path : String) (error : FileError)
  | malformedSettings (path : String) (fault : SettingsFault)
  | missingSetting (group key : String)
  | invalidSetting (group key : String) (fault : SettingFault)
  /-- A definition that was given as a value is malformed. -/
  | definition (error : DecodeError)
  | file (error : FileError)

namespace Problem

def message : Problem → String
  | rule problem => problem.message
  | invalidCash cash => s!"invalid initial cash {cash.text}: must be positive"
  | noBar index length => s!"bar index {index} out of range for series of {length} bars"
  | invalidSeries symbol fault => s!"invalid bar series for {symbol}: {fault.message}"
  | unreadableHistory path error => s!"data source error: failed to read {path}: {error.message}"
  | malformedHistory fault => s!"data source error: {fault.message}"
  | strategy id fault => s!"failed to load strategy {id}: {fault.message}"
  | unreadableSettings path error => s!"config parse error in {path}: {error.message}"
  | malformedSettings path fault => s!"config parse error in {path}: {fault.message}"
  | missingSetting group key => s!"missing config key [{group}] {key}"
  | invalidSetting group key fault => s!"invalid config value [{group}] {key}: {fault.message}"
  | definition error => error.message
  | file error => error.message

/-- The exit code: 1 for files that cannot be written, 2 for settings, 3 for histories, 4 for
strategies and 5 for series. -/
def exitCode : Problem → Nat
  | file _ => 1
  | unreadableSettings _ _ | malformedSettings _ _ | missingSetting _ _ | invalidSetting _ _ _
  | invalidCash _ => 2
  | unreadableHistory _ _ | malformedHistory _ => 3
  | rule _ | strategy _ _ | definition _ => 4
  | noBar _ _ | invalidSeries _ _ => 5

/-- Whether the rules of a strategy are at fault. -/
def isRule : Problem → Bool
  | rule _ => true
  | _ => false

end Problem

def SettingProblem.toProblem : SettingProblem → Problem
  | missing group key => .missingSetting group key
  | invalid group key fault => .invalidSetting group key fault
  | noStrategyFile path => .strategy path .noStrategyFile

/-- Why a run has no result: an arithmetic fault or a problem. -/
inductive Failure where
  | fault (fault : Fault)
  | problem (problem : Problem)

end Backtest
