/-
Where paths lead. A step of a path asks for a folder and goes on from there (`follow_cons`), so a
path leads to the key of its folder and then by its last step (`follow_concat`), and of the steps
before that only those count that lead somewhere (`follow_filter`). A path to a file therefore leads
to the key of its folder and the name, and another name taken from the folder of the path leads to
that name beside it (`keyAt_join_folder`).
-/
import Backtest.Files.Tree
import Backtest.Proofs.Chain
import Backtest.Proofs.Files.Path
import Mathlib.Data.String.Basic

namespace Backtest.FileTree

variable {tree : FileTree} {here key : FileKey} {step name : List Char}

/-! ## Steps -/

/-- A step can be taken from a folder only. -/
def inFolder (tree : FileTree) (here : FileKey) : Except FileError Unit :=
  match tree.entry? here with
  | some .folder => .ok ()
  | some _ => .error .notFolder
  | none => .error .notFound

/-- Where a step leads. -/
def stepTo (here : FileKey) (step : List Char) : Except FileError FileKey :=
  if Path.isIdle step then .ok here
  else if step = ['.', '.'] then .ok (outer here)
  else if maxName < (String.ofList step).utf8ByteSize then .error .nameTooLong
  else .ok (here ++ [String.ofList step])

theorem inFolder_eq_ok_iff : tree.inFolder here = .ok () ↔ tree.entry? here = some .folder := by
  unfold inFolder
  rcases tree.entry? here with _ | _ | _ | _ <;> simp

theorem stepTo_of_isIdle (h : Path.isIdle step = true) (here : FileKey) :
    stepTo here step = .ok here :=
  if_pos h

theorem stepTo_eq_ok_iff (h : Path.IsName name) :
    stepTo here name = .ok key ↔
      String.utf8Len name ≤ maxName ∧ here ++ [String.ofList name] = key := by
  unfold stepTo
  rw [if_neg (by simp [h.active]), if_neg h.notUp, String.utf8ByteSize_ofList]
  by_cases long : maxName < String.utf8Len name
  · simp [long, Nat.not_le.2 long]
  · simp [long, Nat.not_lt.1 long]

theorem follow_cons (tree : FileTree) (here : FileKey) (step : List Char)
    (rest : List (List Char)) :
    tree.follow here (step :: rest) = (do
      tree.inFolder here
      let next ← stepTo here step
      tree.follow next rest) := by
  unfold inFolder stepTo
  rw [follow]
  rcases tree.entry? here with _ | _ | _ | _ <;> try rfl
  dsimp only
  split_ifs <;> rfl

theorem follow_concat (tree : FileTree) (step : List Char) :
    ∀ (ss : List (List Char)) (here : FileKey), tree.follow here (ss ++ [step]) = (do
      let folder ← tree.follow here ss
      tree.inFolder folder
      stepTo folder step)
  | [], here => by
    rw [List.nil_append, follow_cons]
    exact congrArg _ (funext fun _ => bind_pure _)
  | s :: ss, here => by
    rw [List.cons_append, follow_cons, follow_cons]
    simp only [follow_concat tree step ss, bind_assoc]

/-- An idle step before another one changes nothing. -/
theorem follow_cons_idle (hi : Path.isIdle step = true) {rest : List (List Char)} (hr : rest ≠ []) :
    tree.follow here (step :: rest) = tree.follow here rest := by
  obtain ⟨next, later, rfl⟩ := List.exists_cons_of_ne_nil hr
  rw [follow_cons tree here step, stepTo_of_isIdle hi]
  rcases hf : tree.inFolder here with e | _
  · rw [follow_cons, hf]
    rfl
  · rfl

/-- On the way to a last step only those steps count that lead somewhere. -/
theorem follow_filter (last : List Char) : ∀ (ss : List (List Char)) (here : FileKey),
    tree.follow here (ss ++ [last]) = tree.follow here (ss.filter (!Path.isIdle ·) ++ [last])
  | [], _ => rfl
  | s :: ss, here => by
    by_cases hi : Path.isIdle s = true
    · rw [List.cons_append, follow_cons_idle hi (List.concat_ne_nil _ _),
        List.filter_cons_of_neg (by simp [hi]), follow_filter last ss here]
    · rw [List.filter_cons_of_pos (by simp [hi]), List.cons_append, List.cons_append, follow_cons,
        follow_cons]
      simp only [follow_filter last ss]

/-- A path that ends in an idle step leads to a folder. -/
theorem entry?_of_follow_idle (hi : Path.isIdle step = true) {ss : List (List Char)}
    (h : tree.follow here (ss ++ [step]) = .ok key) : tree.entry? key = some .folder := by
  rw [follow_concat] at h
  obtain ⟨folder, -, h⟩ := bind_eq_ok_iff.1 h
  obtain ⟨_, opened, h⟩ := bind_eq_ok_iff.1 h
  rw [stepTo_of_isIdle hi] at h
  cases h
  exact inFolder_eq_ok_iff.1 opened

/-! ## Paths -/

/-- The key that a path leads to. -/
def keyAt (tree : FileTree) (path : String) : Except FileError FileKey := do
  tree.follow (← start path) (Path.steps path.toList)

section Paths

variable {path text : String} {before after : List (List Char)} {other : List Char}

theorem read_eq_ok_iff :
    tree.read path = .ok text ↔
      ∃ key, tree.keyAt path = .ok key ∧ tree.entry? key = some (.text text) := by
  unfold read keyAt
  simp only [bind_eq_ok_iff]
  constructor
  · rintro ⟨first, hf, key, hk, h⟩
    refine ⟨key, ⟨first, hf, hk⟩, ?_⟩
    split at h <;> cases h
    assumption
  · rintro ⟨key, ⟨first, hf, hk⟩, h⟩
    refine ⟨first, hf, key, hk, ?_⟩
    rw [h]

theorem start_eq_ok_iff {first : FileKey} :
    start path = .ok first ↔ '\x00' ∉ path.toList ∧ path ≠ "" ∧ path.utf8ByteSize ≤ maxPath ∧
      (if Path.isAbsolute path.toList then rootKey else []) = first := by
  unfold start
  simp only [List.contains_iff_mem]
  by_cases zero : '\x00' ∈ path.toList
  · simp [zero]
  · by_cases blank : path = ""
    · simp [blank]
    · by_cases long : maxPath < path.utf8ByteSize
      · simp [zero, blank, long, Nat.not_le.2 long]
      · simp [zero, blank, long, Nat.not_lt.1 long]

theorem zero_notMem_of_keyAt (h : tree.keyAt path = .ok key) : '\x00' ∉ path.toList := by
  obtain ⟨_, hs, -⟩ := bind_eq_ok_iff.1 h
  exact (start_eq_ok_iff.1 hs).1

/-- A path to a file ends with the name of the file. -/
theorem after_eq_nil (named : Path.Named path.toList before name after)
    (hk : tree.keyAt path = .ok key) (ht : tree.entry? key = some (.text text)) : after = [] := by
  rcases List.eq_nil_or_concat after with none | ⟨init, step, rfl⟩
  · exact none
  · obtain ⟨first, -, hf⟩ := bind_eq_ok_iff.1 hk
    rw [named.parts, List.concat_eq_append, ← List.cons_append, ← List.append_assoc] at hf
    have folder := entry?_of_follow_idle (named.idle step (by simp)) hf
    rw [ht] at folder
    cases folder

/-- A name as long as the path's own, taken from the folder of the path, makes a path that starts
where the path starts. -/
theorem start_join_folder (named : Path.Named path.toList before name after)
    (ho : Path.IsName other) (zero : '\x00' ∉ other)
    (size : String.utf8Len other = String.utf8Len name) (short : String.utf8Len name ≤ maxName)
    {first : FileKey} (hs : start path = .ok first) :
    start (String.ofList (Path.join (Path.folder path.toList) other)) = .ok first := by
  obtain ⟨path_zero, -, path_short, absolute⟩ := start_eq_ok_iff.1 hs
  have some_char : String.ofList (Path.join (Path.folder path.toList) other) ≠ "" := fun e =>
    (named.join_folder_named ho).path_ne_nil (by simpa using congrArg String.toList e)
  obtain ⟨folderText, texts, cases⟩ := named.exists_join_folder
  rw [start_eq_ok_iff, String.toList_ofList, String.utf8ByteSize_ofList,
    named.isAbsolute_join_folder ho]
  refine ⟨?_, some_char, ?_, absolute⟩ <;> rw [texts other ho]
  · intro hm
    rcases List.mem_append.1 hm with hm | hm
    · rcases cases with ⟨-, rfl⟩ | part
      · simp at hm
      · exact path_zero (part.subset (List.mem_append_left _ hm))
    · rcases List.mem_cons.1 hm with e | hm
      · cases e
      · exact zero hm
  · rw [String.utf8Len_append, String.utf8Len_cons, size]
    rcases cases with ⟨-, rfl⟩ | part
    · -- the bare name becomes longer by a dot and a slash
      have dot : String.utf8Len ['.'] = 1 := rfl
      have slash : Char.utf8Size '/' = 1 := rfl
      unfold maxName at short
      unfold maxPath
      omega
    · have whole := String.utf8Len_le_of_sublist part
      rw [String.utf8Len_append, String.utf8Len_cons, ← String.utf8ByteSize_ofList path.toList,
        String.ofList_toList] at whole
      exact whole.trans path_short

/-- A path to a file leads to its name in a folder, and another name as long, taken from the folder
of the path, to that name in the same folder. -/
theorem exists_folder_keyAt (named : Path.Named path.toList before name after)
    (hk : tree.keyAt path = .ok key) (ht : tree.entry? key = some (.text text)) :
    ∃ folder, key = folder ++ [String.ofList name] ∧ ∀ other, Path.IsName other →
      '\x00' ∉ other → String.utf8Len other = String.utf8Len name →
      tree.keyAt (String.ofList (Path.join (Path.folder path.toList) other)) =
        .ok (folder ++ [String.ofList other]) := by
  obtain rfl := after_eq_nil named hk ht
  obtain ⟨first, hs, hf⟩ := bind_eq_ok_iff.1 hk
  rw [named.parts, follow_filter, ← Path.filter_lead, ← follow_filter, follow_concat] at hf
  obtain ⟨folder, hfolder, hf⟩ := bind_eq_ok_iff.1 hf
  obtain ⟨_, opened, hf⟩ := bind_eq_ok_iff.1 hf
  obtain ⟨short, hkey⟩ := (stepTo_eq_ok_iff named.name).1 hf
  refine ⟨folder, hkey.symm, fun other ho zero size => ?_⟩
  refine bind_eq_ok_iff.2 ⟨first, start_join_folder named ho zero size short hs, ?_⟩
  rw [String.toList_ofList, (named.join_folder_named ho).parts, follow_concat]
  refine bind_eq_ok_iff.2 ⟨folder, hfolder, bind_eq_ok_iff.2 ⟨_, opened, ?_⟩⟩
  exact (stepTo_eq_ok_iff ho).2 ⟨size ▸ short, rfl⟩

end Paths

end Backtest.FileTree
