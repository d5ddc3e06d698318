/-
Everything up to a run from the command line. It is a chain without effects, of which each step ends
in the problem that its stage finds. So the chain ends in the problem of the first stage that finds
one (`stopsAtFirst_input`), and otherwise in what the options and the files describe
(`describes_iff`).
-/
import Backtest.Proofs.CommandLine.Stages

namespace Backtest

/-! ## Loading what the files hold -/

/-- The path of the file that a plan takes its history from. -/
def RunPlan.historyPath (plan : RunPlan) : String :=
  fileIn plan.dataFolder plan.request.symbol "csv"

namespace SettingSource

variable {source : SettingSource} {path override : Option String} {plan : RunPlan} {file : String}

theorem strategyFolder_eq_ok_iff {folder : String} :
    source.strategyFolder path = .ok folder ↔ source.HoldsStrategyFolder path folder := by
  cases path with
  | none => exact (source.required_outcome "strategy" "dir").1 folder
  | some path => simp [strategyFolder_path, HoldsStrategyFolder]

theorem holdsStrategyFile_iff (reads : plan.Reads source path override) :
    source.HoldsStrategyFile path file ↔ plan.strategyPath = file := by
  simp only [HoldsStrategyFile, ← strategyFolder_eq_ok_iff, ← strategyId_eq_ok_iff,
    reads.strategyFolder, reads.strategyId, Except.ok.injEq]
  simp [RunPlan.strategyPath]

theorem holdsHistoryFile_iff (reads : plan.Reads source path override) :
    source.HoldsHistoryFile override file ↔ plan.historyPath = file := by
  simp only [HoldsHistoryFile, ← (source.required_outcome "data" "dir").1,
    ← (source.symbol_outcome path override).1]
  have folder : source.required "data" "dir" = .ok plan.dataFolder := reads.dataFolder
  simp [folder, reads.symbol, RunPlan.historyPath]

end SettingSource

theorem FileTree.shows_iff {tree : FileTree} {folder symbol : String} {first last : Date}
    {bars : List Bar} : tree.Shows (fileIn folder symbol "csv") first last bars ↔
      (loadWindow FileTree.access folder symbol first last tree).1 = .ok bars := by
  rw [loadWindow_eq]
  constructor
  · rintro ⟨text, rows, read, denoted, order⟩
    rw [load_of_read read, History.ofText_of_rows denoted]
    exact congrArg _ (((inOrder_mergeSort rows).filter (History.Within first last)).unique order)
  · intro h
    obtain ⟨history, loaded, rfl⟩ := map_eq_ok_iff.1 h
    obtain ⟨text, read, ofText⟩ := load_eq_ok_iff.1 loaded
    obtain ⟨rows, denoted, order⟩ := inOrder_of_ofText ofText first last
    exact ⟨text, rows, read, denoted, order⟩

namespace RunOptions

variable {o : RunOptions} {tree : FileTree} {settings : Settings} {plan : RunPlan}

theorem HoldsSettings.unique {settings' : Settings} (h : o.HoldsSettings tree settings)
    (h' : o.HoldsSettings tree settings') : settings = settings' := by
  obtain ⟨text, read, ofText⟩ := h
  obtain ⟨text', read', ofText'⟩ := h'
  cases read.symm.trans read'
  exact Except.ok.inj (ofText.symm.trans ofText')

section Plan

variable (held : o.HoldsSettings tree settings)
  (reads : plan.Reads settings.source o.strategy o.symbol)

include held reads

theorem holdsDefinition_iff {definition : Definition} : o.HoldsDefinition tree definition ↔
    (loadStrategy FileTree.access plan.strategyFolder plan.request.strategyId tree).1 =
      .ok definition := by
  unfold loadStrategy
  rw [loadStrategyFile_eq, FileTree.load_eq_ok_iff]
  constructor
  · rintro ⟨settings', file, held', named, defines⟩
    cases held.unique held'
    cases (SettingSource.holdsStrategyFile_iff reads).1 named
    exact defines
  · intro defines
    exact ⟨settings, _, held, (SettingSource.holdsStrategyFile_iff reads).2 rfl, defines⟩

theorem finds_strategy_iff {problem : Problem} : RunStage.strategy.Finds o tree problem ↔
    (loadStrategy FileTree.access plan.strategyFolder plan.request.strategyId tree).1 =
      .error problem := by
  unfold loadStrategy
  rw [loadStrategyFile_eq, FileTree.load_eq_error_iff fun _ _ => Iff.rfl]
  constructor
  · intro found
    cases found with
    | strategy held' named fails =>
      cases held.unique held'
      cases (SettingSource.holdsStrategyFile_iff reads).1 named
      exact fails
  · exact fun fails => .strategy held ((SettingSource.holdsStrategyFile_iff reads).2 rfl) fails

theorem holdsBars_iff {symbol : String} {bars : List Bar} : o.HoldsBars tree symbol bars ↔
    symbol = plan.request.symbol ∧ (loadWindow FileTree.access plan.dataFolder plan.request.symbol
      plan.request.first plan.request.last tree).1 = .ok bars := by
  have symbols := (settings.source.symbol_outcome o.strategy o.symbol).1
  have first_date := (settings.source.date_outcome o.strategy o.symbol (c := .firstDate) rfl).1
  have last_date := (settings.source.date_outcome o.strategy o.symbol (c := .lastDate) rfl).1
  rw [← FileTree.shows_iff]
  constructor
  · rintro ⟨settings', file, first, last, held', hs, named, hf, hl, shows⟩
    cases held.unique held'
    cases (SettingSource.holdsHistoryFile_iff reads).1 named
    cases ((symbols _).2 hs).symm.trans reads.symbol
    cases ((first_date _).2 hf).symm.trans reads.first
    cases ((last_date _).2 hl).symm.trans reads.last
    exact ⟨rfl, shows⟩
  · rintro ⟨rfl, shows⟩
    exact ⟨settings, _, _, _, held, (symbols _).1 reads.symbol,
      (SettingSource.holdsHistoryFile_iff reads).2 rfl, (first_date _).1 reads.first,
      (last_date _).1 reads.last, shows⟩

theorem finds_history_iff {problem : Problem} : RunStage.history.Finds o tree problem ↔
    (loadWindow FileTree.access plan.dataFolder plan.request.symbol plan.request.first
      plan.request.last tree).1 = .error problem := by
  rw [loadWindow_eq, map_eq_error_iff,
    FileTree.load_eq_error_iff fun _ _ => History.ofText_eq_error_iff]
  constructor
  · intro found
    cases found with
    | history held' named fails =>
      cases held.unique held'
      cases (SettingSource.holdsHistoryFile_iff reads).1 named
      exact fails
  · exact fun fails => .history held ((SettingSource.holdsHistoryFile_iff reads).2 rfl) fails

theorem finds_series_iff {bars : List Bar} {problem : Problem}
    (hb : (loadWindow FileTree.access plan.dataFolder plan.request.symbol plan.request.first
      plan.request.last tree).1 = .ok bars) : RunStage.series.Finds o tree problem ↔
    (Series.ofBars? plan.request.symbol bars).mapError (.invalidSeries plan.request.symbol) =
      .error problem := by
  rw [mapError_eq_error_iff]
  constructor
  · intro found
    cases found with
    | series holds least here =>
      obtain ⟨rfl, hb'⟩ := (holdsBars_iff held reads).1 holds
      cases hb.symm.trans hb'
      exact ⟨_, Series.ofBars?_eq_error_iff.2 ⟨_, least, here⟩, rfl⟩
  · rintro ⟨fault, refused, rfl⟩
    obtain ⟨i, least, here⟩ := Series.ofBars?_eq_error_iff.1 refused
    exact .series ((holdsBars_iff held reads).2 ⟨rfl, hb⟩) least here

theorem finds_rules_iff {definition : Definition} {problem : Problem}
    (hd : (loadStrategy FileTree.access plan.strategyFolder plan.request.strategyId tree).1 =
      .ok definition) : RunStage.rules.Finds o tree problem ↔
    definition.checkedRules.mapError .rule = .error problem := by
  rw [mapError_eq_error_iff]
  constructor
  · intro found
    cases found with
    | rules holds first =>
      cases hd.symm.trans ((holdsDefinition_iff held reads).1 holds)
      exact ⟨_, Definition.checkedRules_eq_error_iff.2 first, rfl⟩
  · rintro ⟨e, refused, rfl⟩
    exact .rules ((holdsDefinition_iff held reads).2 hd)
      (Definition.checkedRules_eq_error_iff.1 refused)

end Plan

/-! ## Everything up to the run -/

def source (o : RunOptions) (tree : FileTree) : Except Problem SettingSource :=
  (Command.loadSettings FileTree.access o.settings tree).1

end RunOptions

/-- What a plan leads to up to the run, as a chain. -/
def RunPlan.input (plan : RunPlan) (tree : FileTree) : Except Problem RunInput := do
  let request := plan.request
  let definition ← (loadStrategy FileTree.access plan.strategyFolder request.strategyId tree).1
  let bars ← (loadWindow FileTree.access plan.dataFolder request.symbol request.first request.last
    tree).1
  let series ← (Series.ofBars? request.symbol bars).mapError (.invalidSeries request.symbol)
  let _ ← definition.checkedRules.mapError .rule
  return ⟨definition, series, request.cash, plan.policy⟩

/-- Everything up to the run, as a chain. -/
def RunOptions.input (o : RunOptions) (tree : FileTree) : Except Problem RunInput := do
  let source ← o.source tree
  let plan ← (source.plan o.strategy o.symbol).mapError SettingProblem.toProblem
  plan.input tree

namespace RunOptions

variable {o : RunOptions} {tree : FileTree} {settings : Settings} {plan : RunPlan}

theorem source_eq_ok_iff {source : SettingSource} : o.source tree = .ok source ↔
    ∃ settings : Settings, o.HoldsSettings tree settings ∧ settings.source = source := by
  unfold RunOptions.source
  rw [loadSettings_eq, map_eq_ok_iff]
  exact exists_congr fun settings => and_congr_left' FileTree.load_eq_ok_iff

theorem finds_settings_iff {problem : Problem} :
    RunStage.settings.Finds o tree problem ↔ o.source tree = .error problem := by
  unfold RunOptions.source
  rw [loadSettings_eq, map_eq_error_iff, FileTree.load_eq_error_iff fun _ _ => Iff.rfl]
  constructor
  · intro found
    cases found with
    | settings fails => exact fails
  · exact .settings

theorem finds_check_iff (held : o.HoldsSettings tree settings) {check : SettingCheck}
    (mem : check ∈ SettingCheck.ofRequest) (problem : Problem) :
    (RunStage.check check).Finds o tree problem ↔
      ∃ e, check.Finds settings.source o.strategy o.symbol e ∧ e.toProblem = problem := by
  constructor
  · intro found
    cases found with
    | check held' found =>
      cases held.unique held'
      exact ⟨_, found, rfl⟩
    | noStrategyFolder | noDataFolder =>
      simp [SettingCheck.ofRequest, SettingCheck.ofRun, SettingCheck.ofDates] at mem
  · rintro ⟨e, found, rfl⟩
    exact .check held found

theorem finds_strategyFolder_iff (held : o.HoldsSettings tree settings) (problem : Problem) :
    (RunStage.check .strategyFolder).Finds o tree problem ↔
      ∃ e, settings.source.strategyFolder o.strategy = .error e ∧ e.toProblem = problem := by
  have missing := (settings.source.required_outcome "strategy" "dir").2
  constructor
  · intro found
    cases found with
    | check _ found => cases found with | noDate key | noCalendarDate key => cases key
    | noStrategyFolder held' given lacks =>
      cases held.unique held'
      rw [given]
      exact ⟨_, (missing _).2 ⟨lacks, rfl⟩, rfl⟩
  · rintro ⟨e, h, rfl⟩
    cases given : o.strategy with
    | none =>
      rw [given] at h
      obtain ⟨lacks, rfl⟩ := (missing e).1 h
      exact .noStrategyFolder held given lacks
    | some path =>
      rw [given, SettingSource.strategyFolder_path] at h
      cases h

theorem finds_dataFolder_iff (held : o.HoldsSettings tree settings) (problem : Problem) :
    (RunStage.check .dataFolder).Finds o tree problem ↔
      ∃ e, settings.source.dataFolder = .error e ∧ e.toProblem = problem := by
  have missing := (settings.source.required_outcome "data" "dir").2
  constructor
  · intro found
    cases found with
    | check _ found => cases found with | noDate key | noCalendarDate key => cases key
    | noDataFolder held' lacks =>
      cases held.unique held'
      exact ⟨_, (missing _).2 ⟨lacks, rfl⟩, rfl⟩
  · rintro ⟨e, h, rfl⟩
    obtain ⟨lacks, rfl⟩ := (missing e).1 h
    exact .noDataFolder held lacks

/-- The checks of the settings find what they find on their own. -/
theorem stopsAtFirst_plan (held : o.HoldsSettings tree settings) :
    StopsAtFirst (RunStage.Finds o tree) (SettingCheck.order.map .check)
      ((settings.source.plan o.strategy o.symbol).mapError SettingProblem.toProblem) := by
  have request : StopsAtFirst (RunStage.Finds o tree) (SettingCheck.ofRequest.map .check)
      ((settings.source.request o.strategy o.symbol).mapError SettingProblem.toProblem) :=
    StopsAtFirst.map (SettingCheck.stopsAtFirst_request _ _ _) fun _ mem => finds_check_iff held mem
  unfold SettingSource.plan
  rw [mapError_bind]
  refine .bind _ [RunStage.check .strategyFolder, .check .dataFolder] request fun ⟨_, _⟩ _ => ?_
  rw [mapError_bind]
  refine .bind [RunStage.check .strategyFolder] [.check .dataFolder] (.single fun problem => ?_)
    fun _ _ => ?_
  · rw [mapError_eq_error_iff, finds_strategyFolder_iff held]
  rw [mapError_bind]
  refine .bind [RunStage.check .dataFolder] [] (.single fun problem => ?_) fun _ _ => .nil _
  rw [mapError_eq_error_iff, finds_dataFolder_iff held]

/-- Everything up to the run ends in the problem of the first stage that finds one. -/
theorem stopsAtFirst_input (o : RunOptions) (tree : FileTree) :
    StopsAtFirst (RunStage.Finds o tree) RunStage.beforeRun (o.input tree) := by
  unfold input RunPlan.input RunStage.beforeRun
  rw [List.append_assoc]
  refine .bind [RunStage.settings] _ (.single fun _ => finds_settings_iff.symm) fun source hs => ?_
  obtain ⟨settings, held, rfl⟩ := source_eq_ok_iff.1 hs
  refine .bind _ _ (stopsAtFirst_plan held) fun plan hp => ?_
  -- the later stages take from the settings what the plan has taken
  have reads := SettingSource.reads_of_plan (mapError_eq_ok_iff.1 hp)
  refine .bind [RunStage.strategy] [.history, .series, .rules]
    (.single fun _ => (finds_strategy_iff held reads).symm) fun definition hd => ?_
  refine .bind [RunStage.history] [.series, .rules]
    (.single fun _ => (finds_history_iff held reads).symm) fun bars hb => ?_
  refine .bind [RunStage.series] [.rules]
    (.single fun _ => (finds_series_iff held reads hb).symm) fun series _ => ?_
  exact .bind [RunStage.rules] [] (.single fun _ => (finds_rules_iff held reads hd).symm)
    fun _ _ => .nil _

end RunOptions

/-- What a plan leads to is in its files, with rules that pass. -/
theorem RunPlan.input_eq_ok_iff {plan : RunPlan} {tree : FileTree} {input : RunInput} :
    plan.input tree = .ok input ↔
      (loadStrategy FileTree.access plan.strategyFolder plan.request.strategyId tree).1 =
        .ok input.definition ∧
      (input.series.symbol = plan.request.symbol ∧
        (loadWindow FileTree.access plan.dataFolder plan.request.symbol plan.request.first
          plan.request.last tree).1 = .ok input.series.bars) ∧
      (∀ e, ¬ input.definition.Offends e) ∧ input.cash = plan.request.cash ∧
      input.policy = plan.policy := by
  unfold RunPlan.input
  simp only [bind_eq_ok_iff, pure_eq_ok_iff, mapError_eq_ok_iff, Series.ofBars?_eq_ok_iff]
  constructor
  · rintro ⟨definition, hd, bars, hb, series, ⟨symbol, same⟩, rules, checked, rfl⟩
    exact ⟨hd, ⟨symbol, same ▸ hb⟩, Definition.not_offends_of_checkedRules checked, rfl, rfl⟩
  · rintro ⟨hd, ⟨symbol, hb⟩, clean, cash, policy⟩
    obtain ⟨rules, checked⟩ := Definition.exists_ok_iff.2 clean
    refine ⟨_, hd, _, hb, _, ⟨symbol, rfl⟩, rules, checked, ?_⟩
    rw [← cash, ← policy]

namespace RunOptions

variable {o : RunOptions} {tree : FileTree} {input : RunInput}

/-- There are folders for what is described. -/
theorem Describes.exists_plan (h : o.Describes tree input) :
    ∃ (settings : Settings) (plan : RunPlan), o.HoldsSettings tree settings ∧
      settings.source.plan o.strategy o.symbol = .ok plan ∧
      input.cash = plan.request.cash ∧ input.policy = plan.policy := by
  obtain ⟨settings, request, held, holds, cash⟩ := h.request
  obtain ⟨settings', _, held', ⟨folder, _, named, -⟩, -⟩ := h.definition
  cases held.unique held'
  obtain ⟨settings', _, _, _, held', -, ⟨data, _, named', -⟩, -⟩ := h.bars
  cases held.unique held'
  refine ⟨settings, ⟨request, input.policy, folder, data⟩, held, ?_, cash.symm, rfl⟩
  exact SettingSource.plan_eq_ok_iff.2 ⟨SettingSource.request_eq_ok_iff.2 holds,
    SettingSource.strategyFolder_eq_ok_iff.2 named,
    ((settings.source.required_outcome "data" "dir").1 data).2 named'⟩

/-- The chain gives what the options and the files describe, and nothing else. -/
theorem describes_iff : o.Describes tree input ↔ o.input tree = .ok input := by
  unfold RunOptions.input
  simp only [bind_eq_ok_iff, mapError_eq_ok_iff, source_eq_ok_iff, RunPlan.input_eq_ok_iff]
  constructor
  · intro h
    obtain ⟨settings, plan, held, hp, cash, policy⟩ := h.exists_plan
    have reads := SettingSource.reads_of_plan hp
    exact ⟨_, ⟨settings, held, rfl⟩, plan, hp, (holdsDefinition_iff held reads).1 h.definition,
      (holdsBars_iff held reads).1 h.bars, h.rules, cash, policy⟩
  · rintro ⟨_, ⟨settings, held, rfl⟩, plan, hp, hd, hb, clean, cash, policy⟩
    have reads := SettingSource.reads_of_plan hp
    have request := SettingSource.request_eq_ok_iff.1 (SettingSource.plan_eq_ok_iff.1 hp).1
    rw [← policy] at request
    exact ⟨⟨settings, _, held, request, cash.symm⟩, (holdsDefinition_iff held reads).2 hd,
      (holdsBars_iff held reads).2 hb, clean⟩

end RunOptions
end Backtest
