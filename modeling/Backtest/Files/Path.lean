/-
The texts of file paths. A path is a sequence of steps divided by slashes; empty steps and single
dots change nothing, except that a path may start with a dot. The file name of a path is its last
step, and what follows the last dot in the name, unless the dot is at its start, is the extension.
-/
namespace Backtest.Path

/-- The steps of a path, of which there is at least one. -/
def steps : List Char → List (List Char)
  | [] => [[]]
  | c :: rest =>
    if c = '/' then [] :: steps rest
    else
      match steps rest with
      | [] => [[c]]
      | step :: later => (c :: step) :: later

/-- A step that leads nowhere else. -/
def isIdle (step : List Char) : Bool :=
  step == [] || step == ['.']

/-- The path of the given steps. -/
def ofSteps (steps : List (List Char)) : List Char :=
  List.intercalate ['/'] steps

theorem steps_ne_nil (path : List Char) : steps path ≠ [] := by
  cases path with
  | nil => simp [steps]
  | cons c rest =>
    unfold steps
    split
    · simp
    · split <;> simp

/-- A path is made of its steps. -/
theorem ofSteps_steps (path : List Char) : ofSteps (steps path) = path := by
  induction path with
  | nil => rfl
  | cons c rest ih =>
    have hne := steps_ne_nil rest
    unfold steps
    split
    · next h =>
      subst h
      cases hs : steps rest with
      | nil => exact absurd hs hne
      | cons step later =>
        rw [hs] at ih
        simpa [ofSteps, List.intercalate, List.intersperse] using ih
    · split
      · next hs => exact absurd hs hne
      · next step later hs =>
        rw [hs] at ih
        cases later with
        | nil => simpa [ofSteps, List.intercalate, List.intersperse] using ih
        | cons next later => simpa [ofSteps, List.intercalate, List.intersperse] using ih

def isAbsolute (path : List Char) : Bool :=
  path.head? == some '/'

/-- The name at the end of a path, none if the path ends in two dots or has no name. -/
def fileName? (path : List Char) : Option (List Char) :=
  match (steps path).reverse.dropWhile isIdle with
  | [] => none
  | name :: _ => if name = ['.', '.'] then none else some name

/-- A name without its extension, and the extension. -/
def splitName (name : List Char) : List Char × Option (List Char) :=
  let extension := (name.reverse.takeWhile (· != '.')).reverse
  let stem := name.take (name.length - extension.length - 1)
  if extension.length = name.length ∨ stem = [] then (name, none) else (stem, some extension)

def stem? (path : List Char) : Option (List Char) :=
  (fileName? path).map fun name => (splitName name).1

def extension? (path : List Char) : Option (List Char) :=
  (fileName? path).bind fun name => (splitName name).2

/-- The path that leads to the last step of a path. Steps at its end that lead nowhere are left
out; it is empty for a bare name. -/
def parent (path : List Char) : List Char :=
  match (steps path).reverse.dropWhile isIdle with
  | [] => []
  | _ :: before =>
    let kept := before.dropWhile isIdle
    if kept = [] then
      if isAbsolute path then ['/']
      else if before.getLast? = some ['.'] then ['.']
      else []
    else ofSteps kept.reverse

/-- A path taken from a folder: an absolute path stands for itself. -/
def join (folder path : List Char) : List Char :=
  if isAbsolute path ∨ folder = [] then path
  else if folder.getLast? = some '/' then folder ++ path
  else folder ++ '/' :: path

end Backtest.Path
