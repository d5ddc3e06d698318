/-
Loading the inputs of a run. It takes a text from the files, reads it, and leaves the files as they
are; what comes of it depends on the text alone (`FileTree.load`).
-/
import Backtest.CommandLine.Answer
import Backtest.Proofs.Chain

namespace Backtest

/-! ## A file and its text -/

namespace FileTree

variable {ε α : Type}

/-- What the text of a file is read as. -/
def load (tree : FileTree) (path : String) (ofText : String → Except ε α)
    (unreadable : FileError → Problem) (malformed : ε → Problem) : Except Problem α :=
  match tree.read path with
  | .error e => .error (unreadable e)
  | .ok text => (ofText text).mapError malformed

/-- What is wrong with a file: it cannot be read, or its text has a flaw. -/
inductive Fails (tree : FileTree) (path : String) (Flawed : String → ε → Prop)
    (unreadable : FileError → Problem) (malformed : ε → Problem) : Problem → Prop
  | unreadable {e : FileError} (closed : tree.read path = .error e) :
    Fails tree path Flawed unreadable malformed (unreadable e)
  | malformed {text : String} {fault : ε} (reads : tree.read path = .ok text)
      (flawed : Flawed text fault) :
    Fails tree path Flawed unreadable malformed (malformed fault)

variable {tree : FileTree} {path : String} {ofText : String → Except ε α}
variable {unreadable : FileError → Problem} {malformed : ε → Problem}

theorem load_of_read {text : String} (h : tree.read path = .ok text) :
    tree.load path ofText unreadable malformed = (ofText text).mapError malformed := by
  unfold load
  rw [h]

theorem load_eq_ok_iff {a : α} : tree.load path ofText unreadable malformed = .ok a ↔
    ∃ text, tree.read path = .ok text ∧ ofText text = .ok a := by
  unfold load
  cases tree.read path with
  | error e => simp
  | ok text => simp [mapError_eq_ok_iff]

theorem load_eq_error_iff {Flawed : String → ε → Prop} {problem : Problem}
    (flawed_iff : ∀ text fault, ofText text = .error fault ↔ Flawed text fault) :
    tree.load path ofText unreadable malformed = .error problem ↔
      tree.Fails path Flawed unreadable malformed problem := by
  constructor
  · intro h
    cases reads : tree.read path with
    | error e =>
      unfold load at h
      rw [reads] at h
      cases h
      exact .unreadable reads
    | ok text =>
      rw [load_of_read reads] at h
      obtain ⟨fault, outcome, rfl⟩ := mapError_eq_error_iff.1 h
      exact .malformed reads ((flawed_iff text fault).1 outcome)
  · intro fails
    cases fails with
    | unreadable closed =>
      unfold load
      rw [closed]
    | malformed reads flawed =>
      rw [load_of_read reads]
      exact mapError_eq_error_iff.2 ⟨_, (flawed_iff _ _).2 flawed, rfl⟩

end FileTree

/-! ## The inputs -/

variable (tree : FileTree) (path folder symbol : String) (first last : Date)

theorem loadSettings_eq : Command.loadSettings FileTree.access path tree =
    ((tree.load path Settings.ofText (.unreadableSettings path) (.malformedSettings path)).map
      Settings.source, tree) := by
  have access : FileTree.access.read path tree = (tree.read path, tree) := rfl
  unfold Command.loadSettings FileTree.load
  simp only [bind, StateT.bind, access]
  rcases tree.read path with e | text
  · rfl
  · rcases hs : Settings.ofText text with fault | settings <;> simp only [hs] <;> rfl

/-- The identifier of the strategy in a file. -/
def strategyName (path : String) : String :=
  String.ofList ((Path.stem? path.toList).getD [])

theorem loadStrategyFile_eq : loadStrategyFile FileTree.access path tree =
    (tree.load path (Definition.ofText (strategyName path))
      (fun e => .strategy (strategyName path) (.unreadable path e))
      (fun e => .strategy (strategyName path) (.malformed e)), tree) := by
  have access : FileTree.access.read path tree = (tree.read path, tree) := rfl
  unfold loadStrategyFile FileTree.load strategyName
  simp only [bind, StateT.bind, access]
  rcases tree.read path with e | text
  · rfl
  · dsimp only
    rcases Definition.ofText (String.ofList ((Path.stem? path.toList).getD [])) text with e | d <;>
      rfl

theorem loadHistory_eq : loadHistory FileTree.access folder symbol tree =
    (tree.load (fileIn folder symbol "csv") History.ofText
      (.unreadableHistory (fileIn folder symbol "csv")) .malformedHistory, tree) := by
  have access : FileTree.access.read (fileIn folder symbol "csv") tree =
      (tree.read (fileIn folder symbol "csv"), tree) := rfl
  unfold loadHistory FileTree.load
  simp only [bind, StateT.bind, access]
  rcases tree.read (fileIn folder symbol "csv") with e | text
  · rfl
  · dsimp only
    rcases History.ofText text with fault | bars <;> rfl

theorem loadWindow_eq : loadWindow FileTree.access folder symbol first last tree =
    ((tree.load (fileIn folder symbol "csv") History.ofText
      (.unreadableHistory (fileIn folder symbol "csv")) .malformedHistory).map
      (History.window first last), tree) := by
  unfold loadWindow
  simp only [bind, StateT.bind, loadHistory_eq]
  rfl

theorem loadRange_eq : loadRange FileTree.access folder symbol tree =
    ((tree.load (fileIn folder symbol "csv") History.ofText
      (.unreadableHistory (fileIn folder symbol "csv")) .malformedHistory).map
      History.range?, tree) := by
  unfold loadRange
  simp only [bind, StateT.bind, loadHistory_eq]
  rfl

end Backtest
