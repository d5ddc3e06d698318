/-
The stages of a run from the command line. What a stage finds is told by what the files hold and not
through the functions that load them: a text that cannot be had or has a flaw, a check of the
settings that fails, bars that are not in order, a rule that offends (`RunStage.Finds`). A run starts
from a definition, bars, cash and a policy, which are described in the same way
(`RunOptions.Describes`).
-/
import Backtest.Proofs.CommandLine.StrategyFile
import Backtest.Proofs.Run.FirstOffence
import Backtest.Proofs.Series.Check
import Backtest.Proofs.Settings.Request

namespace Backtest

/-- The options of a run. -/
structure RunOptions where
  settings : String
  strategy : Option String
  symbol : Option String
  output : Option String

def RunOptions.command (o : RunOptions) : Command :=
  .backtest o.settings o.strategy o.symbol o.output

inductive RunStage where
  | settings
  | check (check : SettingCheck)
  | strategy
  | history
  | series
  | rules
  | report
  deriving DecidableEq, Repr

namespace RunStage

def beforeRun : List RunStage :=
  [settings] ++ SettingCheck.order.map check ++ [strategy, history, series, rules]

/-- All stages, in order. -/
def order : List RunStage := beforeRun ++ [report]

/-- The exit code when the stage fails. -/
def exitCode : RunStage → Nat
  | settings => 2
  | check c => c.exitCode
  | strategy | rules => 4
  | history => 3
  | series => 5
  | report => 1

end RunStage

/-- What a run starts from. -/
structure RunInput where
  definition : Definition
  series : Series
  cash : Decimal
  policy : OpenPositionPolicy

def RunInput.run (i : RunInput) : Except Failure Run :=
  Run.ofDefinition i.definition i.series i.cash i.policy

/-! ## What the files hold -/

namespace SettingSource

variable (source : SettingSource) (path override : Option String)

/-- The folder of the strategy is that of the path that is given, if there is one, else the one that
the settings name. -/
def HoldsStrategyFolder (folder : String) : Prop :=
  match path with
  | some path => String.ofList (Path.folder path.toList) = folder
  | none => source.HoldsText "strategy" "dir" folder

/-- The file of the strategy. -/
def HoldsStrategyFile (file : String) : Prop :=
  ∃ folder id, source.HoldsStrategyFolder path folder ∧ source.HoldsStrategy path id ∧
    fileIn folder id "json" = file

/-- The file of the history. -/
def HoldsHistoryFile (file : String) : Prop :=
  ∃ folder symbol, source.HoldsText "data" "dir" folder ∧ source.HoldsSymbol override symbol ∧
    fileIn folder symbol "csv" = file

end SettingSource

namespace FileTree

variable (tree : FileTree) (file : String)

/-- The text of a file is a definition. -/
def Defines (definition : Definition) : Prop :=
  ∃ text, tree.read file = .ok text ∧ Definition.ofText (strategyName file) text = .ok definition

/-- The rows of a file that lie between two dates are the bars, which are in the order of time. -/
def Shows (first last : Date) (bars : List Bar) : Prop :=
  ∃ text rows, tree.read file = .ok text ∧ History.Rows text rows ∧
    InOrder (rows.filter (History.Within first last)) bars

end FileTree

namespace RunOptions

variable (o : RunOptions) (tree : FileTree)

/-- The settings are in the file that is given for them. -/
def HoldsSettings (settings : Settings) : Prop :=
  ∃ text, tree.read o.settings = .ok text ∧ Settings.ofText text = .ok settings

/-- The definition is in the file of the strategy. -/
def HoldsDefinition (definition : Definition) : Prop :=
  ∃ settings file, o.HoldsSettings tree settings ∧
    settings.source.HoldsStrategyFile o.strategy file ∧ tree.Defines file definition

/-- The bars of the symbol are in the file of the history. -/
def HoldsBars (symbol : String) (bars : List Bar) : Prop :=
  ∃ settings file first last, o.HoldsSettings tree settings ∧
    settings.source.HoldsSymbol o.symbol symbol ∧ settings.source.HoldsHistoryFile o.symbol file ∧
    settings.source.HoldsDate "start_date" first ∧ settings.source.HoldsDate "end_date" last ∧
    tree.Shows file first last bars

/-- What a run starts from, as the options and the files have it. -/
structure Describes (input : RunInput) : Prop where
  request : ∃ (settings : Settings) (request : RunRequest), o.HoldsSettings tree settings ∧
    request.Held settings.source o.strategy o.symbol input.policy ∧ request.cash = input.cash
  definition : o.HoldsDefinition tree input.definition
  bars : o.HoldsBars tree input.series.symbol input.series.bars
  rules : ∀ e, ¬ input.definition.Offends e

end RunOptions

/-! ## What a stage finds -/

/-- The problem that a stage finds, whatever the others find. -/
inductive RunStage.Finds (o : RunOptions) (tree : FileTree) : RunStage → Problem → Prop
  | settings {problem : Problem} (fails : tree.Fails o.settings
        (fun text fault => Settings.ofText text = .error fault) (.unreadableSettings o.settings)
        (.malformedSettings o.settings) problem) :
    Finds o tree .settings problem
  | check {settings : Settings} {check : SettingCheck} {problem : SettingProblem}
      (held : o.HoldsSettings tree settings)
      (found : check.Finds settings.source o.strategy o.symbol problem) :
    Finds o tree (.check check) problem.toProblem
  | noStrategyFolder {settings : Settings} (held : o.HoldsSettings tree settings)
      (given : o.strategy = none) (lacks : settings.source.Lacks "strategy" "dir") :
    Finds o tree (.check .strategyFolder) (.missingSetting "strategy" "dir")
  | noDataFolder {settings : Settings} (held : o.HoldsSettings tree settings)
      (lacks : settings.source.Lacks "data" "dir") :
    Finds o tree (.check .dataFolder) (.missingSetting "data" "dir")
  | strategy {settings : Settings} {file : String} {problem : Problem}
      (held : o.HoldsSettings tree settings)
      (named : settings.source.HoldsStrategyFile o.strategy file)
      (fails : tree.Fails file
        (fun text e => Definition.ofText (strategyName file) text = .error e)
        (fun e => .strategy (strategyName file) (.unreadable file e))
        (fun e => .strategy (strategyName file) (.malformed e)) problem) :
    Finds o tree .strategy problem
  | history {settings : Settings} {file : String} {problem : Problem}
      (held : o.HoldsSettings tree settings)
      (named : settings.source.HoldsHistoryFile o.symbol file)
      (fails : tree.Fails file History.Flawed (.unreadableHistory file) .malformedHistory problem) :
    Finds o tree .history problem
  | series {symbol : String} {bars : List Bar} {index : ℕ} {fault : SeriesFault}
      (held : o.HoldsBars tree symbol bars) (least : IsLeast {i | InvalidAt bars i} index)
      (here : fault.At bars index) :
    Finds o tree .series (.invalidSeries symbol fault)
  | rules {definition : Definition} {e : PlacedProblem} (held : o.HoldsDefinition tree definition)
      (first : IsFirst definition.Offends e) :
    Finds o tree .rules (.rule e)
  | report {path : String} {e : FileError} (given : o.output = some path)
      (closed : ∀ content, tree.write path content = .error e) :
    Finds o tree .report (.file e)

/-- The stage is the first that finds a problem. -/
def RunOptions.FailsAt (o : RunOptions) (tree : FileTree) (stage : RunStage) (problem : Problem) :
    Prop :=
  FirstAt (RunStage.Finds o tree) RunStage.order stage problem

/-- The run that the options and the files describe. -/
def RunOptions.Gives (o : RunOptions) (tree : FileTree) (run : Run) : Prop :=
  ∃ input, o.Describes tree input ∧ input.run = .ok run

/-! ## Exit codes -/

theorem SettingCheck.exitCode_of_finds {source : SettingSource} {path override : Option String}
    {check : SettingCheck} {problem : SettingProblem}
    (found : check.Finds source path override problem) :
    problem.toProblem.exitCode = check.exitCode := by
  cases found with
  | noDate dated | noCalendarDate dated =>
    cases check <;> first | rfl | cases dated
  | _ => rfl

namespace RunStage

variable {o : RunOptions} {tree : FileTree} {stage : RunStage} {problem : Problem}

/-- A problem has the exit code of the stage that finds it. -/
theorem exitCode_of_finds (found : stage.Finds o tree problem) :
    problem.exitCode = stage.exitCode := by
  cases found with
  | settings fails | strategy _ _ fails | history _ _ fails => cases fails <;> rfl
  | check _ found => exact SettingCheck.exitCode_of_finds found
  | _ => rfl

/-- Only a report that cannot be written has the exit code 1. -/
theorem exitCode_before_report (h : stage ≠ .report) :
    stage.exitCode ≠ 0 ∧ stage.exitCode ≠ 1 := by
  cases stage with
  | check c => cases c <;> exact ⟨nofun, nofun⟩
  | report => exact absurd rfl h
  | _ => exact ⟨nofun, nofun⟩

end RunStage

end Backtest
