/-
The settings of a run: what to run, over which dates, with how much cash. The checks come in a
fixed order, which decides the problem that is reported: cash, first and last date, their order,
the policy for an open position, the symbol, and then the strategy.
-/
import Backtest.Calendar.Reader
import Backtest.Decimal.Reader
import Backtest.Equity.Curve
import Backtest.Files.Path
import Backtest.Settings.Ini

namespace Backtest

/-- What is wrong with the value of a key. -/
inductive SettingFault where
  | notDecimal
  | notPositive
  | invalidDate (key : String)
  | datesReversed
  | unknownPolicy (name : String)
  | blankSymbol
  deriving DecidableEq

def SettingFault.message : SettingFault → String
  | notDecimal => "initial_cash must be a decimal number"
  | notPositive => "initial_cash must be positive"
  | invalidDate key => s!"invalid {key} format, expected YYYY-MM-DD"
  | datesReversed => "start_date must not be after end_date"
  | unknownPolicy name => OpenPositionPolicy.unknownMessage name
  | blankSymbol => "symbol override must not be empty"

/-- Why a run cannot be set up. -/
inductive SettingProblem where
  | missing (group key : String)
  | invalid (group key : String) (fault : SettingFault)
  /-- A strategy file must have the extension `json`. -/
  | noStrategyFile (path : String)
  deriving DecidableEq

/-- Settings by section and key, as texts and as amounts. -/
structure SettingSource where
  text? : (group key : String) → Option String
  amount? : (group key : String) → Option Decimal

def Settings.source (settings : Settings) : SettingSource where
  text? := settings.get?
  amount? group key := (settings.get? group key).bind fun v => Decimal.ofText? (Text.trim v)

/-- A run that is fully described. -/
structure RunRequest where
  strategyId : String
  symbol : String
  first : Date
  last : Date
  cash : Decimal
  deriving DecidableEq

namespace SettingSource

/-- The section that describes a run. -/
def runGroup : String := "backtest"

def cash (source : SettingSource) : Except SettingProblem Decimal :=
  match source.text? runGroup "initial_cash" with
  | none => .error (.missing runGroup "initial_cash")
  | some _ =>
    match source.amount? runGroup "initial_cash" with
    | none => .error (.invalid runGroup "initial_cash" .notDecimal)
    | some cash =>
      if cash.IsPositive then .ok cash else .error (.invalid runGroup "initial_cash" .notPositive)

/-- The date of a key. -/
def date (source : SettingSource) (key : String) : Except SettingProblem Date :=
  match source.text? runGroup key with
  | none => .error (.missing runGroup key)
  | some text =>
    match Date.ofText? (Text.trim text) with
    | some date => .ok date
    | none => .error (.invalid runGroup key (.invalidDate key))

/-- The policy for an open position, which is left out by default. -/
def policy (source : SettingSource) : Except SettingProblem OpenPositionPolicy :=
  match source.text? runGroup "open_position" with
  | none => .ok .exclude
  | some text =>
    match OpenPositionPolicy.ofText text with
    | .ok policy => .ok policy
    | .error name => .error (.invalid runGroup "open_position" (.unknownPolicy name))

/-- The trimmed value of a key that must not be blank. -/
def required (source : SettingSource) (group key : String) : Except SettingProblem String :=
  match source.text? group key with
  | none => .error (.missing group key)
  | some text =>
    if Text.trim text = "" then .error (.missing group key) else .ok (Text.trim text)

/-- The symbol: the one given in its place, if there is one, else that of the settings. -/
def symbol (source : SettingSource) (override : Option String) : Except SettingProblem String :=
  match override with
  | some text =>
    if Text.trim text = "" then .error (.invalid runGroup "symbol" .blankSymbol)
    else .ok (Text.trim text)
  | none => source.required runGroup "symbol"

/-- Both dates, in order. -/
def dates (source : SettingSource) : Except SettingProblem (Date × Date) := do
  let first ← source.date "start_date"
  let last ← source.date "end_date"
  if last < first then .error (.invalid runGroup "start_date" .datesReversed)
  else return (first, last)

/-- Check everything that describes a run but the strategy; the symbol to run. -/
def check (source : SettingSource) (override : Option String) : Except SettingProblem String := do
  let _ ← source.cash
  let _ ← source.dates
  let _ ← source.policy
  source.symbol override

/-- The identifier of the strategy in a file, which must have the extension `json` in any case. -/
def strategyOfPath (path : String) : Except SettingProblem String :=
  match Path.stem? path.toList, Path.extension? path.toList with
  | some stem, some extension =>
    if extension.map Char.toLower = ['j', 's', 'o', 'n'] then .ok (String.ofList stem)
    else .error (.noStrategyFile path)
  | _, _ => .error (.noStrategyFile path)

/-- The run that the settings describe, for the strategy in a file, if one is given. -/
def request (source : SettingSource) (strategyPath override : Option String) :
    Except SettingProblem (RunRequest × OpenPositionPolicy) := do
  let symbol ← source.check override
  let strategyId ← match strategyPath with
    | some path => strategyOfPath path
    | none => source.required "strategy" "id"
  let first ← source.date "start_date"
  let last ← source.date "end_date"
  let cash ← source.cash
  return (⟨strategyId, symbol, first, last, cash⟩, ← source.policy)

/-- The folder of the strategy: that of the file, if one is given. -/
def strategyFolder (source : SettingSource) (strategyPath : Option String) :
    Except SettingProblem String :=
  match strategyPath with
  | some path =>
    match Path.parent path.toList with
    | [] => .ok "."
    | folder => .ok (String.ofList folder)
  | none => source.required "strategy" "dir"

def dataFolder (source : SettingSource) : Except SettingProblem String :=
  source.required "data" "dir"

end SettingSource
end Backtest
