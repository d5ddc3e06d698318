/-
Files and folders, and what reading and writing a path does to them. Every file has a key, the
names that lead to it from the working folder; a path is followed step by step to a key. What lies
outside the working folder is taken to be folders without files.
-/
import Backtest.Files.Path

namespace Backtest

/-- Why a file cannot be read or written. -/
inductive FileError where
  | notFound
  | denied
  | notFolder
  | isFolder
  | nameTooLong
  /-- A name cannot hold the character zero. -/
  | zeroInName
  /-- The content is not text. -/
  | notText
  | other (message : String)
  deriving DecidableEq

def FileError.message : FileError → String
  | notFound => "No such file or directory (os error 2)"
  | denied => "Permission denied (os error 13)"
  | notFolder => "Not a directory (os error 20)"
  | isFolder => "Is a directory (os error 21)"
  | nameTooLong => "File name too long (os error 36)"
  | zeroInName => "file name contained an unexpected NUL byte"
  | notText => "stream did not contain valid UTF-8"
  | other message => message

inductive FileEntry where
  | text (content : String)
  /-- A file whose bytes are not text. -/
  | bytes
  | folder
  deriving DecidableEq

/-- The names that lead to a file or folder. -/
abbrev FileKey := List String

/-- Files and folders by their keys, no key twice. -/
structure FileTree where
  entries : List (FileKey × FileEntry)

namespace FileTree

def empty : FileTree := ⟨[]⟩

/-- The key of the topmost folder of all. -/
def rootKey : FileKey := ["/"]

/-- The entry of a key. The working folder, the folders above it and the topmost one are there. -/
def entry? (tree : FileTree) (key : FileKey) : Option FileEntry :=
  if key.all (· == "..") ∨ key = rootKey then some .folder
  else (tree.entries.find? (·.1 = key)).map (·.2)

/-- The key of the folder around the given one. -/
def outer (key : FileKey) : FileKey :=
  if key = rootKey then key
  else if key.all (· == "..") then ".." :: key
  else key.dropLast

/-- The tree with an entry in place of the one with its key, if there is one. -/
def set (tree : FileTree) (key : FileKey) (entry : FileEntry) : FileTree :=
  ⟨tree.entries.filter (·.1 ≠ key) ++ [(key, entry)]⟩

/-- The tree with an entry and the folders that lead to it. -/
def plant (tree : FileTree) (key : FileKey) (entry : FileEntry) : FileTree :=
  let folders := (List.range key.length).map (key.take ·)
  (folders.foldl (fun t k => if (t.entry? k).isSome then t else t.set k .folder) tree).set key entry

/-! ## Following paths -/

/-- The longest name of a file and the longest path, in bytes. -/
def maxName : Nat := 255

def maxPath : Nat := 4095

/-- Follow steps from a folder; the last step need not lead to anything. -/
def follow (tree : FileTree) : FileKey → List (List Char) → Except FileError FileKey
  | here, [] => .ok here
  | here, step :: rest =>
    match tree.entry? here with
    | some .folder =>
      if Path.isIdle step then follow tree here rest
      else if step = ['.', '.'] then follow tree (outer here) rest
      else if maxName < (String.ofList step).utf8ByteSize then .error .nameTooLong
      else follow tree (here ++ [String.ofList step]) rest
    | some _ => .error .notFolder
    | none => .error .notFound

/-- The key at which the steps of a path start, if the path can be followed at all. -/
def start (path : String) : Except FileError FileKey :=
  if path.toList.contains '\x00' then .error .zeroInName
  else if path = "" then .error .notFound
  else if maxPath < path.utf8ByteSize then .error .nameTooLong
  else .ok (if Path.isAbsolute path.toList then rootKey else [])

/-- The text of the file at a path. -/
def read (tree : FileTree) (path : String) : Except FileError String := do
  let key ← tree.follow (← start path) (Path.steps path.toList)
  match tree.entry? key with
  | some (.text content) => .ok content
  | some .bytes => .error .notText
  | some .folder => .error .isFolder
  | none => .error .notFound

/-- The tree with the text written to the file at a path. The folder has to be there; a path that
ends in a slash or dots names a folder, even if its name is too long for one. -/
def write (tree : FileTree) (path content : String) : Except FileError FileTree := do
  let first ← start path
  let steps := Path.steps path.toList
  match steps.reverse.dropWhile (· == []) with
  | [] => .error .isFolder
  | last :: before =>
    if last = ['.'] ∨ last = ['.', '.'] then
      let _ ← tree.follow first (steps ++ [[]])
      .error .isFolder
    else
      let folder ← tree.follow first (before.reverse ++ [[]])
      if steps.getLast? = some [] then .error .isFolder
      else if maxName < (String.ofList last).utf8ByteSize then .error .nameTooLong
      else
        let key := folder ++ [String.ofList last]
        match tree.entry? key with
        | some .folder => .error .isFolder
        | _ => .ok (tree.set key (.text content))

end FileTree

/-! ## Access -/

/-- Reading and writing files in a context `m`. -/
structure FileAccess (m : Type → Type) where
  read : (path : String) → m (Except FileError String)
  write : (path content : String) → m (Except FileError Unit)

/-- Access to a tree that is passed along. -/
def FileTree.access : FileAccess (StateM FileTree) where
  read path := fun tree => (tree.read path, tree)
  write path content := fun tree =>
    match tree.write path content with
    | .ok tree => (.ok (), tree)
    | .error e => (.error e, tree)

end Backtest
