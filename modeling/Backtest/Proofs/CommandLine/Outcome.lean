/-
How a run from the command line ends. The command does what comes of the chain of its stages: the
problem of the chain is reported and the files stay as they are. A run that goes through it fails by
an arithmetic fault only, and the report is written after it, so the first stage that finds a problem
decides the exit code (`perform_spec`).
-/
import Backtest.Proofs.CommandLine.Input
import Backtest.Proofs.Equity.ReportFile

namespace Backtest

/-! ## Answers -/

namespace Answer

variable (a : Answer) (problem : Problem)

@[simp] theorem failed_output : (a.failed problem).output = a.output := rfl

/-- The answer for a problem prints no output. -/
theorem ofRunProblem_eq :
    (ofRunProblem problem).exitCode = problem.exitCode ∧ (ofRunProblem problem).output = "" := by
  unfold ofRunProblem
  split <;> exact ⟨rfl, rfl⟩

theorem ofRunProblem_of_not_isRule (h : problem.isRule = false) :
    ofRunProblem problem = ofProblem problem := by
  unfold ofRunProblem
  rw [h]
  rfl

end Answer

/-- The figures of a report as they are shown. -/
def Report.figures (r : Report) : List String :=
  [Nat.repr r.trades, r.profit.text, r.returnPercent.text ++ "%", r.winRatePercent.text ++ "%",
    r.drawdownPercent.text ++ "%"]

/-- An output shows a report: the first line has the names of the strategy and the symbol, and the
lines after it end in the figures, in their order. -/
def Report.ShownBy (r : Report) (output : String) : Prop :=
  ∃ heading figures rest,
    output = String.join ((heading :: figures ++ rest).map (· ++ "\n")) ∧
    (r.strategy ++ " on " ++ r.symbol).toList <:+: heading.toList ∧
    List.Forall₂ (fun figure line => (" " ++ figure).toList <:+ line.toList) r.figures figures

theorem Run.shownBy_summary (run : Run) :
    run.report.ShownBy (Answer.ofLines run.summary).output := by
  obtain ⟨heading, figures, rest, lines, names, ends⟩ : ∃ heading figures rest,
      run.summary = heading :: figures ++ rest ∧
      (run.report.strategy ++ " on " ++ run.report.symbol).toList <:+: heading.toList ∧
      List.Forall₂ (fun figure line => (" " ++ figure).toList <:+ line.toList)
        run.report.figures figures := by
    refine ⟨_, _, _, rfl, ⟨"=== ".toList, " ===".toList, by simp [toString]⟩, ?_⟩
    unfold Report.figures
    refine .cons ⟨"Total Trades:    ".toList, ?_⟩ (.cons ⟨"Profit/Loss:     ".toList, ?_⟩
      (.cons ⟨"Total Return:    ".toList, ?_⟩ (.cons ⟨"Win Rate:        ".toList, ?_⟩
        (.cons ⟨"Max Drawdown:    ".toList, ?_⟩ .nil)))) <;> simp [toString]
  exact ⟨heading, figures, rest, congrArg (fun lines => (Answer.ofLines lines).output) lines,
    names, ends⟩

namespace RunOptions

variable {o : RunOptions} {tree : FileTree}

theorem isRule_toProblem (p : SettingProblem) : p.toProblem.isRule = false := by
  cases p <;> rfl

theorem isRule_of_source {p : Problem} (h : o.source tree = .error p) : p.isRule = false := by
  cases finds_settings_iff.2 h with
  | settings fails => cases fails <;> rfl

theorem loadSettings_eq_source (o : RunOptions) (tree : FileTree) :
    Command.loadSettings FileTree.access o.settings tree = (o.source tree, tree) := by
  unfold source
  rw [loadSettings_eq]

end RunOptions

/-! ## The run of a plan -/

/-- The rules are checked before anything is computed from them. -/
theorem RunPlan.ofFiles_eq {plan : RunPlan} (positive : plan.request.cash.IsPositive)
    (tree : FileTree) :
    Run.ofFiles FileTree.access plan.strategyFolder plan.dataFolder plan.request plan.policy tree =
      (orProblem id (plan.input tree) >>= RunInput.run, tree) := by
  obtain ⟨loaded, hd⟩ : ∃ loaded, loadStrategy FileTree.access plan.strategyFolder
      plan.request.strategyId tree = (loaded, tree) := ⟨_, loadStrategyFile_eq tree _⟩
  obtain ⟨window, hb⟩ : ∃ window, loadWindow FileTree.access plan.dataFolder plan.request.symbol
      plan.request.first plan.request.last tree = (window, tree) := ⟨_, loadWindow_eq tree _ _ _ _⟩
  unfold Run.ofFiles RunPlan.input
  simp only [bind, StateT.bind, hd]
  rcases loaded with p | definition
  · rfl
  simp only [bind, StateT.bind, hb]
  rcases window with p | bars
  · rfl
  simp only [Except.bind]
  rcases Series.ofBars? plan.request.symbol bars with fault | series
  · rfl
  simp only [mapError_ok]
  rcases hr : definition.checkedRules with problem | rules
  · -- the run finds the same problem, since its cash passes the check in front of the rules
    have broken : definition.prepare series.closes = .error (.problem (.rule problem)) := by
      unfold Definition.prepare
      rw [hr]
      rfl
    have stops : Run.ofDefinition definition series plan.request.cash plan.policy =
        .error (.problem (.rule problem)) := by
      unfold Run.ofDefinition
      rw [if_neg (not_not.2 positive), broken]
      rfl
    rw [stops]
    rfl
  · rfl

/-- With cash and rules that pass the checks a run fails by an arithmetic fault only. -/
theorem RunOptions.Describes.run_cases {o : RunOptions} {tree : FileTree} {input : RunInput}
    (h : o.Describes tree input) :
    (∃ run, input.run = .ok run) ∨ ∃ fault, input.run = .error (.fault fault) := by
  obtain ⟨settings, request, -, held, cash⟩ := h.request
  have positive : input.cash.IsPositive := by
    rw [← cash]
    exact Decimal.isPositive_iff.2 held.cash.2.2
  obtain ⟨rules, checked⟩ := Definition.exists_ok_iff.2 h.rules
  unfold RunInput.run
  rcases Definition.prepare_of_checkedRules checked input.series.closes with ⟨s, hs⟩ | ⟨fault, hf⟩
  · rw [Run.ofDefinition_of_prepare positive hs]
    split
    · exact .inl ⟨_, rfl⟩
    · rcases Run.ofStrategy s input.series input.cash input.policy with fault | run
      · exact .inr ⟨fault, rfl⟩
      · exact .inl ⟨run, rfl⟩
  · exact .inr ⟨fault, Run.ofDefinition_of_failure positive hf input.policy⟩

/-! ## What the command does -/

namespace RunOptions

variable {o : RunOptions} {tree : FileTree}

theorem run_perform (o : RunOptions) (tree : FileTree) :
    (o.command.perform FileTree.access).run tree =
      Command.performBacktest FileTree.access o.settings o.strategy o.symbol o.output tree := rfl

/-- The problem of the chain up to the run is reported, and the files stay as they are. -/
theorem perform_of_error {p : Problem} (h : o.input tree = .error p) :
    (o.command.perform FileTree.access).run tree = (.ok (.ofRunProblem p), tree) := by
  rw [run_perform]
  unfold Command.performBacktest
  simp only [bind, StateT.bind, loadSettings_eq_source]
  unfold input at h
  rcases hs : o.source tree with p' | source
  · rw [hs] at h
    cases h
    rw [Answer.ofRunProblem_of_not_isRule _ (isRule_of_source hs)]
    rfl
  rw [hs] at h
  rcases hp : source.plan o.strategy o.symbol with p' | plan <;>
    simp only [bind, Except.bind, hp, mapError_ok, mapError_error] at h ⊢
  · cases h
    rw [Answer.ofRunProblem_of_not_isRule _ (isRule_toProblem p')]
    rfl
  have positive := SettingSource.isPositive_of_cash (SettingSource.reads_of_plan hp).cash
  have files := plan.ofFiles_eq positive tree
  rw [h] at files
  simp only [StateT.bind, files]
  rfl

/-- What comes of the run after the chain. -/
theorem perform_of_input {i : RunInput} (h : o.input tree = .ok i) :
    (∃ fault, i.run = .error (.fault fault) ∧
      (o.command.perform FileTree.access).run tree = (.error fault, tree)) ∨
    ∃ run, i.run = .ok run ∧ (o.command.perform FileTree.access).run tree =
      (.ok (Command.reportRun FileTree.access run o.output tree).1,
        (Command.reportRun FileTree.access run o.output tree).2) := by
  have cases_of_run := (describes_iff.2 h).run_cases
  rw [run_perform]
  unfold input at h
  obtain ⟨source, hs, h⟩ := bind_eq_ok_iff.1 h
  obtain ⟨plan, hp, h⟩ := bind_eq_ok_iff.1 h
  have hp := mapError_eq_ok_iff.1 hp
  have positive := SettingSource.isPositive_of_cash (SettingSource.reads_of_plan hp).cash
  have files := plan.ofFiles_eq positive tree
  rw [h] at files
  unfold Command.performBacktest
  simp only [bind, StateT.bind, loadSettings_eq_source, hs, hp, files]
  rcases cases_of_run with ⟨run, hr⟩ | ⟨fault, hf⟩
  · exact .inr ⟨run, hr, by simp only [orProblem, Except.bind, hr]; rfl⟩
  · exact .inl ⟨fault, hf, by simp only [orProblem, Except.bind, hf]; rfl⟩

theorem reportRun_some (run : Run) (path : String) (tree : FileTree) :
    Command.reportRun FileTree.access run (some path) tree =
      match tree.write path run.report.fileText with
      | .ok tree' => (.ofLines run.summary, tree')
      | .error e => ((Answer.ofLines run.summary).failed (.file e), tree) := by
  have access : FileTree.access.write path run.report.fileText tree =
      match tree.write path run.report.fileText with
      | .ok tree' => (.ok (), tree')
      | .error e => (.error e, tree) := rfl
  unfold Command.reportRun
  simp only [bind, StateT.bind, access]
  rcases tree.write path run.report.fileText with e | tree' <;> rfl

/-- What is left of the command after its run, if it has one. -/
theorem reportRun_cases (o : RunOptions) (tree : FileTree) (run : Run) :
    (∃ e, RunStage.report.Finds o tree (.file e) ∧
      Command.reportRun FileTree.access run o.output tree =
        ((Answer.ofLines run.summary).failed (.file e), tree)) ∨
    ∃ tree', (∀ problem, ¬ RunStage.report.Finds o tree problem) ∧
      Command.reportRun FileTree.access run o.output tree = (.ofLines run.summary, tree') ∧
      (o.output = none → tree' = tree) ∧
      ∀ path, o.output = some path → tree'.read path = .ok run.report.fileText := by
  cases output : o.output with
  | none =>
    refine .inr ⟨tree, ?_, rfl, fun _ => rfl, nofun⟩
    rintro problem found
    cases found with
    | report given => cases output.symm.trans given
  | some path =>
    rw [reportRun_some]
    rcases tree.write_cases path with ⟨e, closed⟩ | ⟨key, -, -, written⟩
    · rw [closed]
      exact .inl ⟨e, .report output closed, rfl⟩
    · rw [written]
      refine .inr ⟨_, ?_, rfl, nofun, ?_⟩
      · rintro problem found
        cases found with
        | report given closed =>
          cases output.symm.trans given
          cases (closed "").symm.trans (written "")
      · rintro _ ⟨⟩
        exact FileTree.read_of_write (written _)

/-! ## The first stage that fails -/

/-- A problem of the chain is that of a stage before the report. -/
theorem failsAt_of_error {p : Problem} (h : o.input tree = .error p) :
    (∃ stage, o.FailsAt tree stage p) ∧
      ∀ stage problem, o.FailsAt tree stage problem → problem = p ∧ stage ≠ .report := by
  obtain ⟨stage, first⟩ := (stopsAtFirst_input o tree p).1 h
  refine ⟨⟨stage, firstAt_append_iff.2 (.inl first)⟩, fun stage' problem fails => ?_⟩
  rcases firstAt_append_iff.1 fails with first' | ⟨clean, -⟩
  · cases h.symm.trans ((stopsAtFirst_input o tree problem).2 ⟨_, first'⟩)
    refine ⟨rfl, ?_⟩
    rintro rfl
    simpa [RunStage.beforeRun] using first'.mem
  · exact absurd first.finds (clean stage first.mem p)

/-- After the chain only the report is left to fail. -/
theorem failsAt_iff_of_ok {i : RunInput} (h : o.input tree = .ok i) (stage : RunStage)
    (problem : Problem) : o.FailsAt tree stage problem ↔
      stage = .report ∧ RunStage.report.Finds o tree problem := by
  have stops := stopsAtFirst_input o tree
  rw [h] at stops
  unfold FailsAt RunStage.order
  rw [firstAt_append_iff, firstAt_cons_iff]
  constructor
  · rintro (first | ⟨-, found | ⟨-, later⟩⟩)
    · exact absurd first.finds (stops.not_finds stage first.mem problem)
    · exact found
    · exact absurd later not_firstAt_nil
  · exact fun found => .inr ⟨stops.not_finds, .inl found⟩

/-! ## How a run ends -/

/-- How a run ends that has an answer. -/
structure Answers (o : RunOptions) (tree : FileTree) (answer : Answer) (tree' : FileTree) :
    Prop where
  /-- The exit code is that of the first stage that fails. -/
  code : ∀ stage problem, o.FailsAt tree stage problem → answer.exitCode = stage.exitCode
  passed : (∀ stage problem, ¬ o.FailsAt tree stage problem) → answer.exitCode = 0
  /-- Only a report that cannot be written has the code 1, and the summary is printed before it. -/
  unwritten : answer.exitCode = 1 → (∃ problem, o.FailsAt tree .report problem) ∧
    ∃ run, o.Gives tree run ∧ answer.output = (Answer.ofLines run.summary).output ∧
      run.report.ShownBy answer.output
  /-- Nothing is written when a stage fails, and nothing is printed when it comes before the
  report. -/
  unchanged : answer.exitCode ≠ 0 → tree' = tree ∧ (answer.exitCode ≠ 1 → answer.output = "")
  /-- The report that is summarised is in the file that is given for it. -/
  written : answer.exitCode = 0 → ∃ run, o.Gives tree run ∧
    answer.output = (Answer.ofLines run.summary).output ∧ run.report.ShownBy answer.output ∧
    (o.output = none → tree' = tree) ∧
    ∀ path, o.output = some path → tree'.read path = .ok run.report.fileText ∧
      (run.report.trades < NumberParts.wordBound → run.report.StoredAs run.report.fileText)

theorem answers_of_error {p : Problem} (h : o.input tree = .error p) :
    o.Answers tree (.ofRunProblem p) tree := by
  obtain ⟨⟨stage, fails⟩, only⟩ := failsAt_of_error h
  obtain ⟨code, output⟩ := Answer.ofRunProblem_eq p
  obtain ⟨not_zero, not_one⟩ := RunStage.exitCode_before_report (only stage p fails).2
  rw [← RunStage.exitCode_of_finds fails.finds, ← code] at not_zero not_one
  refine ⟨fun stage' problem fails' => ?_, fun none => absurd fails (none stage p),
    fun one => absurd one not_one, fun _ => ⟨rfl, fun _ => output⟩, fun zero => absurd zero not_zero⟩
  obtain ⟨rfl, -⟩ := only stage' problem fails'
  rw [code, RunStage.exitCode_of_finds fails'.finds]

theorem answers_of_run {i : RunInput} {run : Run} (h : o.input tree = .ok i)
    (hr : i.run = .ok run) :
    o.Answers tree (Command.reportRun FileTree.access run o.output tree).1
      (Command.reportRun FileTree.access run o.output tree).2 := by
  have gives : o.Gives tree run := ⟨i, describes_iff.2 h, hr⟩
  have shown := run.shownBy_summary
  have only := failsAt_iff_of_ok h
  rcases o.reportRun_cases tree run with ⟨e, found, reported⟩ | ⟨tree', clean, reported, kept, reads⟩
  · have fails : o.FailsAt tree .report (.file e) := (only _ _).2 ⟨rfl, found⟩
    rw [reported]
    dsimp only
    refine ⟨fun stage problem fails' => ?_, fun none => absurd fails (none _ _),
      fun _ => ⟨⟨_, fails⟩, run, gives, Answer.failed_output _ _, by rwa [Answer.failed_output]⟩,
      fun _ => ⟨rfl, fun one => absurd rfl one⟩, nofun⟩
    obtain ⟨rfl, -⟩ := (only stage problem).1 fails'
    rfl
  · rw [reported]
    refine ⟨fun stage problem fails => ?_, fun _ => rfl, nofun, fun zero => absurd rfl zero,
      fun _ => ⟨run, gives, rfl, shown, kept, fun path given =>
        ⟨reads path given, fun counted => Run.storedAs_fileText counted hr⟩⟩⟩
    exact absurd ((only stage problem).1 fails).2 (clean problem)

/-- The exit code of a run from the command line is that of the first stage that finds a problem,
whatever the later ones find, and 0 if none does. A stage before the report is answered by its
problem; else there is no answer exactly if the run that the options and the files describe has an
arithmetic fault. -/
theorem perform_spec (o : RunOptions) (tree : FileTree) :
    (∀ stage problem, o.FailsAt tree stage problem → stage ≠ .report →
      (o.command.perform FileTree.access).run tree = (.ok (.ofRunProblem problem), tree)) ∧
    (∀ fault tree', (o.command.perform FileTree.access).run tree = (.error fault, tree') ↔
      tree' = tree ∧ ∃ input, o.Describes tree input ∧ input.run = .error (.fault fault)) ∧
    ∀ answer tree', (o.command.perform FileTree.access).run tree = (.ok answer, tree') →
      o.Answers tree answer tree' := by
  cases chain : o.input tree with
  | error p =>
    have performed := perform_of_error chain
    have only := (failsAt_of_error chain).2
    refine ⟨fun stage problem fails _ => ?_, fun fault tree' => ⟨fun h => ?_, ?_⟩,
      fun answer tree' h => ?_⟩
    · rw [performed, (only stage problem fails).1]
    · cases performed.symm.trans h
    · rintro ⟨-, input, described, -⟩
      cases chain.symm.trans (describes_iff.1 described)
    · cases performed.symm.trans h
      exact answers_of_error chain
  | ok i =>
    have described := describes_iff.2 chain
    have report_only := failsAt_iff_of_ok chain
    refine ⟨fun stage problem fails before => absurd ((report_only _ _).1 fails).1 before, ?_⟩
    rcases perform_of_input chain with ⟨fault, hf, performed⟩ | ⟨run, hr, performed⟩
    · refine ⟨fun fault' tree' => ⟨fun h => ?_, ?_⟩, fun answer tree' h => ?_⟩
      · cases performed.symm.trans h
        exact ⟨rfl, i, described, hf⟩
      · rintro ⟨rfl, i', described', hf'⟩
        cases chain.symm.trans (describes_iff.1 described')
        cases hf.symm.trans hf'
        exact performed
      · cases performed.symm.trans h
    · refine ⟨fun fault tree' => ⟨fun h => ?_, ?_⟩, fun answer tree' h => ?_⟩
      · cases performed.symm.trans h
      · rintro ⟨-, i', described', hf⟩
        cases chain.symm.trans (describes_iff.1 described')
        cases hr.symm.trans hf
      · cases performed.symm.trans h
        exact answers_of_run chain hr

/-- Of a folder that is not given, a strategy that is not there and a report that cannot be written
the folder comes first. With all of them there the report is written, of a run that ends with an open
trade. -/
theorem perform_of_problems_and_report :
    let settings := "[backtest]\nsymbol = A\ninitial_cash = 1\nstart_date = 2024-01-01\n" ++
      "end_date = 2024-12-31\n"
    let o : RunOptions := ⟨"run.ini", some "s.json", none, some "reports/"⟩
    let tree : FileTree := ⟨[(["run.ini"], .text settings)]⟩
    let whole : RunOptions := { o with output := some "report.json" }
    let full : FileTree := ⟨[(["run.ini"], .text (settings ++ "[data]\ndir = .\n")),
      (["s.json"], .text ("\x7b\"name\": \"S\", \"rules\": [\x7b\"action\": \"buy\", " ++
        "\"conditions\": []\x7d]\x7d")),
      (["A.csv"], .text "end_time,open,high,low,close,volume\n2024-01-03,1,1,1,1,1\n")]⟩
    ((∃ p, RunStage.strategy.Finds o tree p) ∧ (∃ p, RunStage.report.Finds o tree p) ∧
      (∃ stage, o.FailsAt tree stage (.missingSetting "data" "dir") ∧ stage ≠ .report) ∧
      ∃ answer, (o.command.perform FileTree.access).run tree = (.ok answer, tree) ∧
        answer.exitCode = 2 ∧ answer.output = "") ∧
    ∃ answer tree' run, (whole.command.perform FileTree.access).run full = (.ok answer, tree') ∧
      answer.exitCode = 0 ∧ whole.Gives full run ∧ run.report.ShownBy answer.output ∧
      ∃ text, tree'.read "report.json" = .ok text ∧ run.report.StoredAs text := by
  intro settings o tree whole full
  constructor
  · have absent : tree.read "./s.json" = .error .notFound := by decide +kernel
    have missing : ((o.input tree).map fun _ => ()).mapError
        (fun | .missingSetting group key => some (group, key) | _ => none) =
          .error (some ("data", "dir")) := by decide +kernel
    obtain ⟨p, refused, named⟩ := mapError_eq_error_iff.1 missing
    have chain : o.input tree = .error (.missingSetting "data" "dir") := by
      rw [map_eq_error_iff.1 refused]
      split at named <;> cases named
      rfl
    obtain ⟨source, hs, -⟩ := exists_of_toOption_map (show (o.source tree).toOption.map
      (fun _ => ()) = some () by decide +kernel)
    obtain ⟨settings', held, rfl⟩ := source_eq_ok_iff.1 hs
    obtain ⟨⟨stage, fails⟩, only⟩ := failsAt_of_error chain
    have before := (only _ _ fails).2
    obtain ⟨answered, -, ends⟩ := perform_spec o tree
    have performed := answered _ _ fails before
    have code := (ends _ _ performed).code _ _ fails
    have two : (Answer.ofRunProblem (.missingSetting "data" "dir")).exitCode = 2 := rfl
    have quiet := ((ends _ _ performed).unchanged (by rw [two]; decide)).2 (by rw [two]; decide)
    have file : fileIn "." "s" "json" = "./s.json" := by decide +kernel
    refine ⟨⟨_, .strategy held ⟨".", "s", ?_, ?_, file⟩ (.unreadable absent)⟩, ?_,
      ⟨stage, fails, before⟩, _, performed, two, quiet⟩
    · show String.ofList (Path.folder "s.json".toList) = "."
      decide +kernel
    · refine (settings'.source.strategyId_eq_ok_iff (some "s.json") "s").1 ?_
      show SettingSource.strategyOfPath "s.json" = .ok "s"
      decide +kernel
    · rcases tree.write_cases "reports/" with ⟨e, closed⟩ | ⟨key, -, -, written⟩
      · exact ⟨_, .report rfl closed⟩
      · have shut : (tree.write "reports/" "").toOption.isSome = false := by decide +kernel
        rw [written] at shut
        cases shut
  · have traded : (whole.input full).toOption.map
        (fun i => i.run.toOption.map (·.report.trades)) = some (some 0) := by decide +kernel
    have writable : (full.write "report.json" "").toOption.isSome = true := by decide +kernel
    obtain ⟨i, chain, traded⟩ := exists_of_toOption_map traded
    have clean (stage : RunStage) (problem : Problem) : ¬ whole.FailsAt full stage problem := by
      intro fails
      cases ((failsAt_iff_of_ok chain stage problem).1 fails).2 with
      | report given closed =>
        cases given
        rw [closed] at writable
        cases writable
    obtain ⟨-, -, ends⟩ := perform_spec whole full
    rcases perform_of_input chain with ⟨fault, hf, -⟩ | ⟨run, hr, performed⟩
    · rw [hf] at traded
      cases traded
    · have answers := ends _ _ performed
      have passed := answers.passed clean
      obtain ⟨run', gives, -, shown, -, reads⟩ := answers.written passed
      obtain ⟨read, stored⟩ := reads _ rfl
      refine ⟨_, _, run', performed, passed, gives, shown, _, read, stored ?_⟩
      obtain ⟨i', described, hr'⟩ := gives
      cases chain.symm.trans (describes_iff.1 described)
      have untraded : run'.report.trades = 0 := by simpa [hr', Except.toOption] using traded
      rw [untraded]
      decide

end RunOptions

end Backtest
