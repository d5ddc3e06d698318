/-
What the commands do: the lines they print and their exit codes. A command goes through its stages
in order and stops at the first problem; only a run with an output path writes a file, and only
after its summary is printed.
-/
import Backtest.CommandLine.Command
import Backtest.Equity.ReportFile
import Backtest.Run

namespace Backtest

/-- What a command prints, as output and as errors, and its exit code. -/
structure Answer where
  output : String
  errors : String
  exitCode : Nat
  deriving DecidableEq

namespace Answer

/-- The lines as output. -/
def ofLines (lines : List String) : Answer :=
  ⟨String.join (lines.map (· ++ "\n")), "", 0⟩

/-- The answer with a problem at its end. -/
def failed (a : Answer) (problem : Problem) : Answer :=
  ⟨a.output, a.errors ++ s!"error: {problem.message}\n", problem.exitCode⟩

def empty : Answer := ⟨"", "", 0⟩

def ofProblem (problem : Problem) : Answer :=
  empty.failed problem

/-- The advice for a strategy whose rules are at fault. -/
def hint : String := "hint: `stratsim validate --strategy <file>` lists the parsed rules\n"

/-- The answer for a run without a result. -/
def ofRunProblem (problem : Problem) : Answer :=
  if problem.isRule then (⟨"", hint, 0⟩ : Answer).failed problem else ofProblem problem

end Answer

/-! ## What is printed -/

/-- The summary of a run. -/
def Run.summary (run : Run) : List String :=
  let r := run.report
  [s!"=== {r.strategy} on {r.symbol} ===",
    s!"Total Trades:     {Nat.repr r.trades}",
    s!"Profit/Loss:      {r.profit.text}",
    s!"Total Return:     {r.returnPercent.text}%",
    s!"Win Rate:         {r.winRatePercent.text}%",
    s!"Max Drawdown:     {r.drawdownPercent.text}%"] ++
  match run.record.openTrade? with
  | some t =>
    [s!"Open Position:    entered at index {Nat.repr t.entry.index} price {t.entry.price.text}"]
  | none => []

/-- The rules of a strategy that count, and the number of those that do not. -/
def Definition.summary (d : Definition) (rules : List Rule) : List String :=
  let skipped := d.rules.length - rules.length
  [s!"Strategy: {d.name}"] ++
  rules.map (fun rule => s!"  rule {Nat.repr rule.index}: {rule.text}") ++
  (if 0 < skipped then [s!"  ({Nat.repr skipped} rule(s) without conditions skipped)"] else []) ++
  ["Strategy definition is valid."]

/-- The span of a history. -/
def rangeSummary (symbol : String) : Option (Date × Date × Nat) → List String
  | some (first, last, count) =>
    [s!"{symbol}: {Nat.repr count} bars, {first.text} to {last.text}"]
  | none => [s!"{symbol}: no data found"]

/-! ## Commands -/

/-- A run with the folders of its strategy and its history. -/
structure RunPlan where
  request : RunRequest
  policy : OpenPositionPolicy
  strategyFolder : String
  dataFolder : String

/-- The run that the settings describe, with the strategy and symbol given in place of theirs. -/
def SettingSource.plan (source : SettingSource) (strategy symbol : Option String) :
    Except SettingProblem RunPlan := do
  let (request, policy) ← source.request strategy symbol
  let strategyFolder ← source.strategyFolder strategy
  let dataFolder ← source.dataFolder
  return ⟨request, policy, strategyFolder, dataFolder⟩

namespace Command

variable {m : Type → Type} [Monad m] (files : FileAccess m)

/-- The settings in a file. -/
def loadSettings (path : String) : m (Except Problem SettingSource) := do
  match ← files.read path with
  | .error e => return .error (.unreadableSettings path e)
  | .ok text =>
    match Settings.ofText text with
    | .error fault => return .error (.malformedSettings path fault)
    | .ok settings => return .ok settings.source

/-- Write the report of a run to the output path, if there is one, and print the summary. -/
def reportRun (run : Run) (output : Option String) : m Answer := do
  let answer := Answer.ofLines run.summary
  match output with
  | none => return answer
  | some path =>
    match ← files.write path run.report.fileText with
    | .ok () => return answer
    | .error e => return answer.failed (.file e)

def performBacktest (settings : String) (strategy symbol output : Option String) :
    m (Except Fault Answer) := do
  match ← loadSettings files settings with
  | .error problem => return .ok (.ofProblem problem)
  | .ok source =>
    match source.plan strategy symbol with
    | .error problem => return .ok (.ofProblem problem.toProblem)
    | .ok plan =>
      match ← Run.ofFiles files plan.strategyFolder plan.dataFolder plan.request plan.policy with
      | .error (.fault fault) => return .error fault
      | .error (.problem problem) => return .ok (.ofRunProblem problem)
      | .ok run => return .ok (← reportRun files run output)

def performValidate (strategy : String) : m Answer := do
  match ← loadStrategyFile files strategy with
  | .error problem => return .ofProblem problem
  | .ok definition =>
    match definition.checkedRules with
    | .error problem => return .ofProblem (.rule problem)
    | .ok rules => return .ofLines (definition.summary rules)

def performInfo (settings : String) (symbol : Option String) : m Answer := do
  match ← loadSettings files settings with
  | .error problem => return .ofProblem problem
  | .ok source =>
    match source.symbol symbol, source.dataFolder with
    | .error problem, _ => return .ofProblem problem.toProblem
    | .ok _, .error problem => return .ofProblem problem.toProblem
    | .ok symbol, .ok folder =>
      match ← loadRange files folder symbol with
      | .error problem => return .ofProblem problem
      | .ok range => return .ofLines (rangeSummary symbol range)

/-- Carry out a command. -/
def perform : Command → m (Except Fault Answer)
  | .backtest settings strategy symbol output =>
    performBacktest files settings strategy symbol output
  | .validate strategy => return .ok (← performValidate files strategy)
  | .info settings symbol => return .ok (← performInfo files settings symbol)

end Command
end Backtest
