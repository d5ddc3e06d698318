/-
Writing files. A path either cannot be written, or it leads to a key that is no folder and whose
entry is replaced, whatever the text (`write_cases`). A key that is no folder lies on no path but at
its end, so all paths lead where they did, and the path that was written is read as the text
(`read_of_write`).
-/
import Backtest.Proofs.Files.Tree

namespace Backtest.FileTree

variable {tree tree' : FileTree} {here key other : FileKey} {entry : FileEntry}
variable {path content : String}

/-! ## Replacing an entry -/

theorem entry?_set_of_ne (h : other ≠ key) :
    entry? (tree.set key entry) other = tree.entry? other := by
  unfold entry? set
  split
  · rfl
  · dsimp only
    rw [List.find?_append, List.find?_filter]
    have alone : [(key, entry)].find? (fun p => decide (p.1 = other)) = none := by
      simp [Ne.symm h]
    rw [alone, Option.or_none]
    congr 2
    funext p
    by_cases e : p.1 = other
    · simp [e, h]
    · simp [e]

/-- A key that is no folder can be given any entry. -/
theorem entry?_set_self (h : tree.entry? key ≠ some .folder) :
    entry? (tree.set key entry) key = some entry := by
  unfold entry? at h ⊢
  split
  · next standing => exact absurd (if_pos standing) h
  · unfold set
    dsimp only
    have gone : (tree.entries.filter (·.1 ≠ key)).find? (·.1 = key) = none := by
      rw [List.find?_eq_none]
      rintro p hp
      simpa using (List.mem_filter.1 hp).2
    rw [List.find?_append, gone]
    simp

/-- No path goes on from a key that is no folder, so where paths lead does not depend on it. -/
theorem follow_set (h : tree.entry? key ≠ some .folder) :
    ∀ {ss : List (List Char)} {here : FileKey}, tree.follow here ss = .ok other →
      (tree.set key entry).follow here ss = .ok other
  | [], _, hf => hf
  | s :: ss, here, hf => by
    rw [follow_cons] at hf ⊢
    obtain ⟨_, opened, hf⟩ := bind_eq_ok_iff.1 hf
    obtain ⟨next, hn, hf⟩ := bind_eq_ok_iff.1 hf
    have folder := inFolder_eq_ok_iff.1 opened
    have ne : here ≠ key := by
      rintro rfl
      exact h folder
    have opened' : (tree.set key entry).inFolder here = .ok () :=
      inFolder_eq_ok_iff.2 ((entry?_set_of_ne ne).trans folder)
    exact bind_eq_ok_iff.2 ⟨_, opened', bind_eq_ok_iff.2 ⟨next, hn, follow_set h hf⟩⟩

theorem keyAt_set (h : tree.entry? key ≠ some .folder) (hk : tree.keyAt path = .ok other) :
    (tree.set key entry).keyAt path = .ok other := by
  obtain ⟨first, hs, hf⟩ := bind_eq_ok_iff.1 hk
  exact bind_eq_ok_iff.2 ⟨first, hs, follow_set h hf⟩

/-! ## Writing -/

/-- The last step of a path that does not end in a slash, taken from the folder before it. -/
theorem keyAt_of_last {first folder : FileKey} {last : List Char} {before : List (List Char)}
    (hs : start path = .ok first)
    (hd : (Path.steps path.toList).reverse.dropWhile (· == []) = last :: before)
    (named : ¬(last = ['.'] ∨ last = ['.', '.']))
    (hf : tree.follow first (before.reverse ++ [[]]) = .ok folder)
    (open_end : (Path.steps path.toList).getLast? ≠ some [])
    (short : ¬maxName < (String.ofList last).utf8ByteSize) :
    tree.keyAt path = .ok (folder ++ [String.ofList last]) := by
  obtain ⟨some_char, whole⟩ := Path.eq_of_dropWhile_reverse hd
  have steps : Path.steps path.toList = before.reverse ++ [last] := by
    rcases hw : (Path.steps path.toList).reverse.takeWhile (· == []) with _ | ⟨s, rest⟩
    · rw [hw] at whole
      exact whole
    · -- the path would end in a slash
      have blank : s = [] := by
        have hm : s ∈ (Path.steps path.toList).reverse.takeWhile (· == []) := by
          rw [hw]
          exact List.mem_cons_self ..
        simpa using List.mem_takeWhile_imp hm
      refine absurd ?_ open_end
      rw [whole, hw, blank, List.reverse_cons, ← List.cons_append, ← List.append_assoc,
        List.getLast?_concat]
  have name : Path.IsName last := by
    refine ⟨?_, fun up => named (.inr up), ?_⟩
    · unfold Path.isIdle
      rw [some_char, Bool.false_or, beq_eq_false_iff_ne]
      exact fun dot => named (.inl dot)
    · refine Path.slash_notMem_of_mem_steps path.toList ?_
      rw [steps]
      exact List.mem_append_right _ (List.mem_singleton_self last)
  have opened := entry?_of_follow_idle rfl hf
  rw [follow_concat] at hf
  obtain ⟨folder', hf, h⟩ := bind_eq_ok_iff.1 hf
  obtain ⟨_, -, h⟩ := bind_eq_ok_iff.1 h
  rw [stepTo_of_isIdle rfl] at h
  cases h
  refine bind_eq_ok_iff.2 ⟨first, hs, ?_⟩
  rw [steps, follow_concat]
  refine bind_eq_ok_iff.2 ⟨folder, hf, bind_eq_ok_iff.2 ⟨(), inFolder_eq_ok_iff.2 opened, ?_⟩⟩
  rw [String.utf8ByteSize_ofList, Nat.not_lt] at short
  exact (stepTo_eq_ok_iff name).2 ⟨short, rfl⟩

/-- Whether a path can be written, and where, does not depend on the text. -/
theorem write_cases (tree : FileTree) (path : String) :
    (∃ e, ∀ content, tree.write path content = .error e) ∨
      ∃ key, tree.keyAt path = .ok key ∧ tree.entry? key ≠ some .folder ∧
        ∀ content, tree.write path content = .ok (tree.set key (.text content)) := by
  unfold write
  rcases hs : start path with e | first
  · exact .inl ⟨e, fun _ => rfl⟩
  simp only [bind, Except.bind]
  rcases hd : (Path.steps path.toList).reverse.dropWhile (· == []) with _ | ⟨last, before⟩
  · exact .inl ⟨_, fun _ => rfl⟩
  dsimp only
  split
  · rcases tree.follow first (Path.steps path.toList ++ [[]]) with e | _
    · exact .inl ⟨e, fun _ => rfl⟩
    · exact .inl ⟨_, fun _ => rfl⟩
  · next named =>
    rcases hf : tree.follow first (before.reverse ++ [[]]) with e | folder
    · exact .inl ⟨e, fun _ => rfl⟩
    dsimp only
    split
    · exact .inl ⟨_, fun _ => rfl⟩
    · next open_end =>
      split
      · exact .inl ⟨_, fun _ => rfl⟩
      · next short =>
        split
        · exact .inl ⟨_, fun _ => rfl⟩
        · next free =>
          exact .inr ⟨_, keyAt_of_last hs hd named hf open_end short, free, fun _ => rfl⟩

/-- A path that was written is read as the text. -/
theorem read_of_write (h : tree.write path content = .ok tree') :
    tree'.read path = .ok content := by
  rcases tree.write_cases path with ⟨e, he⟩ | ⟨key, hk, free, hw⟩
  · rw [he] at h
    cases h
  · rw [hw] at h
    cases h
    exact read_eq_ok_iff.2 ⟨key, keyAt_set free hk, entry?_set_self free⟩

end Backtest.FileTree
