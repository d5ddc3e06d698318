/-
The file that a run takes its strategy from. The path given for it is taken apart into a folder and
an identifier, and these are put together again with the extension `json`. Where the path leads to
a file, the run therefore looks for one beside it (`exists_keyAt_strategyPath`), and it is the same
file exactly if the extension of the path is written `json`.
-/
import Backtest.Proofs.Files.Loading
import Backtest.Proofs.Files.Tree
import Backtest.Proofs.Settings.Checks

namespace Backtest

/-! ## Letter case -/

theorem utf8Size_of_toLower {c : Char} (h : c.toLower.utf8Size = 1) : c.utf8Size = 1 := by
  unfold Char.toLower at h
  split at h
  · next upper => exact Char.utf8Size_eq_one_iff.2 (UInt32.le_trans upper.2 (by decide))
  · exact h

/-- An extension takes four bytes if it is `json` in any case. -/
theorem utf8Len_of_toLower_json {extension : List Char}
    (h : extension.map Char.toLower = ['j', 's', 'o', 'n']) : String.utf8Len extension = 4 := by
  have size : ∀ c ∈ extension, c.utf8Size = 1 := by
    intro c hc
    have lower := List.mem_map_of_mem (f := Char.toLower) hc
    rw [h] at lower
    have ascii : ∀ d ∈ ['j', 's', 'o', 'n'], d.utf8Size = 1 := by
      simp only [List.forall_mem_cons]
      exact ⟨rfl, rfl, rfl, rfl, fun _ hd => absurd hd List.not_mem_nil⟩
    exact utf8Size_of_toLower (ascii _ lower)
  have length : extension.length = 4 := by
    rw [← List.length_map (f := Char.toLower), h]
    rfl
  obtain ⟨a, b, c, d, rfl⟩ := List.length_eq_four.1 length
  simp [size]

/-! ## The parts of the path -/

namespace SettingSource

variable {source : SettingSource} {path id : String} {symbol : Option String} {plan : RunPlan}

theorem strategyFolder_path (source : SettingSource) (path : String) :
    source.strategyFolder (some path) = .ok (String.ofList (Path.folder path.toList)) := by
  unfold strategyFolder Path.folder
  dsimp only
  rcases Path.parent path.toList with _ | ⟨c, rest⟩ <;> rfl

/-- A plan has the identifier and the folder of the path for its strategy. -/
theorem strategy_of_plan (h : source.plan (some path) symbol = .ok plan) :
    strategyOfPath path = .ok plan.request.strategyId ∧
      plan.strategyFolder = String.ofList (Path.folder path.toList) := by
  have reads := reads_of_plan h
  have folder := reads.strategyFolder
  rw [strategyFolder_path] at folder
  exact ⟨reads.strategyId, (Except.ok.inj folder).symm⟩

end SettingSource

/-! ## The file of a plan -/

/-- The path of the file that a plan takes its strategy from. -/
def RunPlan.strategyPath (plan : RunPlan) : String :=
  fileIn plan.strategyFolder plan.request.strategyId "json"

/-- The run of a definition over the history of a request. -/
def Run.overHistory {m : Type → Type} [Monad m] (files : FileAccess m) (dataFolder : String)
    (request : RunRequest) (policy : OpenPositionPolicy) (definition : Definition) :
    m (Except Failure Run) := do
  match ← loadWindow files dataFolder request.symbol request.first request.last with
  | .error problem => return .error (.problem problem)
  | .ok bars =>
    match Series.ofBars? request.symbol bars with
    | .error fault => return .error (.problem (.invalidSeries request.symbol fault))
    | .ok series => return ofDefinition definition series request.cash policy

theorem Run.ofFiles_eq {m : Type → Type} [Monad m] (files : FileAccess m)
    (strategyFolder dataFolder : String) (request : RunRequest) (policy : OpenPositionPolicy) :
    ofFiles files strategyFolder dataFolder request policy = (do
      match ← loadStrategy files strategyFolder request.strategyId with
      | .error problem => return .error (.problem problem)
      | .ok definition => overHistory files dataFolder request policy definition) :=
  rfl

section Plan

variable {source : SettingSource} {path text : String} {symbol : Option String} {plan : RunPlan}
variable {tree : FileTree}

/-- Paths with the same name that are read alike are loaded alike. -/
theorem loadStrategyFile_congr {path' : String}
    (name : Path.fileName? path.toList = Path.fileName? path'.toList)
    (reads : tree.read path = .ok text) (reads' : tree.read path' = .ok text) :
    loadStrategyFile FileTree.access path tree = loadStrategyFile FileTree.access path' tree := by
  have same : strategyName path = strategyName path' := by
    unfold strategyName Path.stem?
    rw [name]
  rw [loadStrategyFile_eq, loadStrategyFile_eq, FileTree.load_of_read reads,
    FileTree.load_of_read reads', same]

/-- The run of a plan goes on with the definition that it loads. -/
theorem Run.ofFiles_of_loadStrategy {definition : Definition}
    (h : loadStrategy FileTree.access plan.strategyFolder plan.request.strategyId tree =
      (.ok definition, tree)) :
    ofFiles FileTree.access plan.strategyFolder plan.dataFolder plan.request plan.policy tree =
      overHistory FileTree.access plan.dataFolder plan.request plan.policy definition tree := by
  rw [ofFiles_eq]
  simp only [bind, StateT.bind, h]

/-- A plan with a path to a file takes its strategy from the same folder, from the file with the
same stem and the extension `json`. -/
theorem exists_keyAt_strategyPath (planned : source.plan (some path) symbol = .ok plan)
    (readable : tree.read path = .ok text) :
    ∃ folder stem extension,
      Path.fileName? path.toList = some (stem ++ '.' :: extension) ∧
      Path.extension? path.toList = some extension ∧
      Path.fileName? plan.strategyPath.toList = some (stem ++ '.' :: ['j', 's', 'o', 'n']) ∧
      tree.keyAt path = .ok (folder ++ [String.ofList (stem ++ '.' :: extension)]) ∧
      tree.keyAt plan.strategyPath =
        .ok (folder ++ [String.ofList (stem ++ '.' :: ['j', 's', 'o', 'n'])]) := by
  obtain ⟨hid, hfolder⟩ := SettingSource.strategy_of_plan planned
  obtain ⟨stem, extension, hs, he, lower, id_eq⟩ := SettingSource.strategyOfPath_eq_ok_iff.1 hid
  obtain ⟨some_char, before, after, named⟩ := Path.exists_named_of_extension? hs he
  obtain ⟨key, hk, ht⟩ := FileTree.read_eq_ok_iff.1 readable
  obtain ⟨folder, rfl, beside⟩ := FileTree.exists_folder_keyAt named hk ht
  have name : Path.IsName (stem ++ '.' :: ['j', 's', 'o', 'n']) :=
    named.name.withExtension some_char (by simp) (by decide)
  have path_eq : plan.strategyPath = String.ofList
      (Path.join (Path.folder path.toList) (stem ++ '.' :: ['j', 's', 'o', 'n'])) := by
    unfold RunPlan.strategyPath fileIn
    rw [hfolder, ← id_eq]
    simp
  refine ⟨folder, stem, extension, named.fileName?_eq, he, ?_, hk, ?_⟩
  · rw [path_eq, String.toList_ofList]
    exact (named.join_folder_named name).fileName?_eq
  · rw [path_eq]
    refine beside _ name ?_ ?_
    · intro hm
      rcases List.mem_append.1 hm with hm | hm
      · exact FileTree.zero_notMem_of_keyAt hk (named.name_subset (List.mem_append_left _ hm))
      · exact absurd hm (by decide)
    · rw [String.utf8Len_append, String.utf8Len_append, String.utf8Len_cons '.' extension,
        utf8Len_of_toLower_json lower]
      rfl

/-- A plan with a path to a file takes its strategy from that file exactly if the extension of the
path is written `json`, and then it runs the definition that the path is loaded as. -/
theorem SettingSource.plan_runs_path_iff (planned : source.plan (some path) symbol = .ok plan)
    (readable : tree.read path = .ok text) :
    (tree.keyAt plan.strategyPath = tree.keyAt path ↔
      Path.extension? path.toList = some ['j', 's', 'o', 'n']) ∧
    (Path.extension? path.toList = some ['j', 's', 'o', 'n'] →
      loadStrategy FileTree.access plan.strategyFolder plan.request.strategyId tree =
        loadStrategyFile FileTree.access path tree ∧
      ∀ definition, loadStrategyFile FileTree.access path tree = (.ok definition, tree) →
        Run.ofFiles FileTree.access plan.strategyFolder plan.dataFolder plan.request plan.policy
            tree =
          Run.overHistory FileTree.access plan.dataFolder plan.request plan.policy definition
            tree) := by
  obtain ⟨folder, stem, extension, name, he, planName, key, planKey⟩ :=
    exists_keyAt_strategyPath planned readable
  rw [he, Option.some_inj]
  refine ⟨?_, ?_⟩
  · rw [key, planKey]
    constructor
    · intro e
      have names := (List.append_right_inj folder).1 (Except.ok.inj e)
      have texts := String.ofList_injective (List.singleton_inj.1 names)
      exact (List.cons.inj ((List.append_right_inj stem).1 texts)).2.symm
    · rintro rfl
      rfl
  · rintro rfl
    have reads : tree.read plan.strategyPath = .ok text := by
      obtain ⟨_, hk, ht⟩ := FileTree.read_eq_ok_iff.1 readable
      rw [key, ← planKey] at hk
      exact FileTree.read_eq_ok_iff.2 ⟨_, hk, ht⟩
    have loads : loadStrategy FileTree.access plan.strategyFolder plan.request.strategyId tree =
        loadStrategyFile FileTree.access path tree :=
      loadStrategyFile_congr (planName.trans name.symm) reads readable
    exact ⟨loads, fun definition h => Run.ofFiles_of_loadStrategy (loads.trans h)⟩

end Plan

/-- The settings of a run, and a strategy in a file with the given extension. -/
def FileTree.ofExtension (extension : String) : FileTree where
  entries := [
    (["run.ini"], .text ("[backtest]\nsymbol = A\ninitial_cash = 1\nstart_date = 2024-01-01\n" ++
      "end_date = 2024-12-31\n[data]\ndir = data\n")),
    (["s." ++ extension], .text "\x7b\"name\": \"S\"\x7d")]

/-- The path is put together again without its idle step, and still leads to the same file. -/
theorem SettingSource.plan_runs_path_with_idle_step :
    let tree := FileTree.ofExtension "json"
    ∃ source plan text, SettingSource.plan source (some ".//s.json") none = .ok plan ∧
      tree.read ".//s.json" = .ok text ∧
      Path.extension? ".//s.json".toList = some ['j', 's', 'o', 'n'] ∧
      plan.strategyPath = "./s.json" ∧ tree.keyAt "./s.json" = tree.keyAt ".//s.json" ∧
      loadStrategy FileTree.access plan.strategyFolder plan.request.strategyId tree =
        loadStrategyFile FileTree.access ".//s.json" tree := by
  intro tree
  let texts := [("symbol", "A"), ("start_date", "2024-01-01"), ("end_date", "2024-12-31"),
    ("initial_cash", "1"), ("dir", "data")]
  let source : SettingSource := ⟨fun _ key => texts.lookup key, fun _ _ => some .one⟩
  have outcome : (source.plan (some ".//s.json") none).toOption.map (·.strategyPath) =
      some "./s.json" := by
    decide +kernel
  have content : (tree.read ".//s.json").toOption.map (fun _ => ()) = some () := by
    decide +kernel
  have extension : Path.extension? ".//s.json".toList = some ['j', 's', 'o', 'n'] := by
    decide +kernel
  obtain ⟨plan, planned, other⟩ := exists_of_toOption_map outcome
  obtain ⟨text, readable, -⟩ := exists_of_toOption_map content
  obtain ⟨same, loads⟩ := plan_runs_path_iff planned readable
  exact ⟨source, plan, text, planned, readable, extension, other,
    other ▸ same.2 extension, (loads extension).1⟩

/-- A file that is valid as a strategy is not found by a run if its extension is written in
capitals. -/
theorem Command.backtest_misses_capital_extension :
    ((perform FileTree.access (.validate "s.JSON")).run
        (FileTree.ofExtension "JSON")).1.toOption =
      some ⟨"Strategy: S\nStrategy definition is valid.\n", "", 0⟩ ∧
    ((perform FileTree.access (.backtest "run.ini" (some "s.JSON") none none)).run
        (FileTree.ofExtension "JSON")).1.toOption =
      some ⟨"", "error: failed to load strategy s: failed to read ./s.json: " ++
        "No such file or directory (os error 2)\n", 4⟩ := by
  decide +kernel

end Backtest
