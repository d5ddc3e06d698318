/-
Paths by their steps. A path with a file name is some steps, the name, and steps that lead nowhere.
The folder of the path keeps what leads somewhere of the steps before the name (`lead`), so that the
name taken from there is a path with the same steps but for idle ones.
-/
import Backtest.Files.Path
import Mathlib.Data.List.DropRight

namespace Backtest.Path

/-- The last entry outside `p`, with what is before it and the entries in `p` after it. -/
theorem eq_of_dropWhile_reverse {α : Type} {p : α → Bool} {xs before : List α} {x : α}
    (h : xs.reverse.dropWhile p = x :: before) :
    p x = false ∧ xs = before.reverse ++ x :: (xs.reverse.takeWhile p).reverse := by
  have outside := List.head?_dropWhile_not p xs.reverse
  have parts := List.takeWhile_append_dropWhile (p := p) (l := xs.reverse)
  rw [h] at outside parts
  have whole := congrArg List.reverse parts
  rw [List.reverse_append, List.reverse_cons, List.reverse_reverse, List.append_assoc] at whole
  exact ⟨by simpa using outside, whole.symm⟩

/-! ## Steps and texts -/

theorem steps_eq_splitOn : ∀ path : List Char, steps path = path.splitOn '/'
  | [] => rfl
  | c :: rest => by
    unfold steps List.splitOn
    rw [steps_eq_splitOn rest, List.splitOnP_cons_eq_if_modifyHead]
    by_cases h : c = '/'
    · rw [if_pos h, if_pos (beq_iff_eq.2 h)]
      rfl
    · rw [if_neg h, if_neg (fun e => h (beq_iff_eq.1 e))]
      unfold List.splitOn
      rcases hs : rest.splitOnP (· == '/') with _ | ⟨step, later⟩
      · exact absurd hs (List.splitOnP_ne_nil _ _)
      · rfl

/-- Steps without slashes are the steps of the path that they make up. -/
theorem steps_ofSteps {ss : List (List Char)} (h : ∀ s ∈ ss, '/' ∉ s) (hne : ss ≠ []) :
    steps (ofSteps ss) = ss := by
  rw [steps_eq_splitOn]
  exact List.splitOn_intercalate '/' h hne

theorem slash_notMem_of_mem_steps :
    ∀ (path : List Char) {s : List Char}, s ∈ steps path → '/' ∉ s
  | [], s, h => by
    cases List.mem_singleton.1 h
    exact List.not_mem_nil
  | c :: rest, s, h => by
    have ih {t : List Char} := slash_notMem_of_mem_steps rest (s := t)
    unfold steps at h
    split at h
    · rcases List.mem_cons.1 h with rfl | h
      · exact List.not_mem_nil
      · exact ih h
    · next hc =>
      split at h
      · next hs => exact absurd hs (steps_ne_nil rest)
      · next step later hs =>
        rw [hs] at ih
        rcases List.mem_cons.1 h with rfl | h
        · intro hm
          rcases List.mem_cons.1 hm with e | hm
          · exact hc e.symm
          · exact ih (List.mem_cons_self ..) hm
        · exact ih (List.mem_cons_of_mem _ h)

theorem ofSteps_cons (s : List Char) {ss : List (List Char)} (hne : ss ≠ []) :
    ofSteps (s :: ss) = s ++ '/' :: ofSteps ss := by
  obtain ⟨t, rest, rfl⟩ := List.exists_cons_of_ne_nil hne
  unfold ofSteps
  rw [List.intercalate_cons_cons, List.append_assoc]
  rfl

@[simp] theorem ofSteps_singleton (s : List Char) : ofSteps [s] = s :=
  List.intercalate_singleton

theorem ofSteps_concat (s : List Char) : ∀ {ss : List (List Char)}, ss ≠ [] →
    ofSteps (ss ++ [s]) = ofSteps ss ++ '/' :: s
  | [], h => absurd rfl h
  | [t], _ => by
    rw [List.singleton_append, ofSteps_cons t (List.cons_ne_nil s []), ofSteps_singleton,
      ofSteps_singleton]
  | t :: u :: rest, _ => by
    rw [List.cons_append, ofSteps_cons t (List.concat_ne_nil _ _),
      ofSteps_concat s (List.cons_ne_nil u rest), ofSteps_cons t (List.cons_ne_nil u rest),
      List.append_assoc]
    rfl

theorem getLast?_ofSteps_concat (init : List (List Char)) {s : List Char} (hs : s ≠ []) :
    (ofSteps (init ++ [s])).getLast? = s.getLast? := by
  rcases eq_or_ne init [] with rfl | hne
  · rw [List.nil_append, ofSteps_singleton]
  · obtain ⟨c, cs, rfl⟩ := List.exists_cons_of_ne_nil hs
    rw [ofSteps_concat _ hne, List.getLast?_append, List.getLast?_cons_cons,
      List.getLast?_eq_some_getLast hs]
    rfl

/-- Leaving out steps leaves out characters. -/
theorem ofSteps_sublist {ss ts : List (List Char)} (h : ss.Sublist ts) :
    (ofSteps ss).Sublist (ofSteps ts) := by
  induction h with
  | slnil => exact List.Sublist.refl _
  | @cons ss ts t hs ih =>
    rcases eq_or_ne ts [] with rfl | hne
    · cases List.sublist_nil.1 hs
      exact List.nil_sublist _
    · rw [ofSteps_cons t hne]
      exact ih.trans ((List.sublist_cons_self '/' _).trans (List.sublist_append_right t _))
  | @cons_cons ss ts t hs ih =>
    rcases eq_or_ne ss [] with rfl | hne
    · rcases eq_or_ne ts [] with rfl | hne'
      · exact List.Sublist.refl _
      · rw [ofSteps_cons t hne', ofSteps_singleton]
        exact List.sublist_append_left t _
    · have hne' : ts ≠ [] := fun e => hne (List.sublist_nil.1 (e ▸ hs))
      rw [ofSteps_cons t hne, ofSteps_cons t hne']
      exact (ih.cons_cons '/').append_left t

/-! ## Names -/

/-- A step that is the name of a file or folder. -/
structure IsName (name : List Char) : Prop where
  active : isIdle name = false
  notUp : name ≠ ['.', '.']
  slashFree : '/' ∉ name

theorem IsName.ne_nil {name : List Char} (h : IsName name) : name ≠ [] := by
  rintro rfl
  cases h.active

theorem IsName.isAbsolute_eq {name : List Char} (h : IsName name) : isAbsolute name = false := by
  unfold isAbsolute
  rw [beq_eq_false_iff_ne]
  exact fun e => h.slashFree (List.mem_of_head? e)

/-- The path has some steps, then a name, and after it nothing but idle steps. -/
structure Named (path : List Char) (before : List (List Char)) (name : List Char)
    (after : List (List Char)) : Prop where
  parts : steps path = before ++ name :: after
  idle : ∀ s ∈ after, isIdle s = true
  name : IsName name

theorem exists_named {path name : List Char} (h : fileName? path = some name) :
    ∃ before after, Named path before name after := by
  unfold fileName? at h
  rcases hd : (steps path).reverse.dropWhile isIdle with _ | ⟨name', before⟩
  · rw [hd] at h
    cases h
  · rw [hd] at h
    simp only at h
    split at h
    · cases h
    · next up =>
      cases h
      obtain ⟨active, whole⟩ := eq_of_dropWhile_reverse hd
      have free : '/' ∉ name := slash_notMem_of_mem_steps path (by rw [whole]; simp)
      exact ⟨before.reverse, ((steps path).reverse.takeWhile isIdle).reverse, whole,
        fun s hs => List.mem_takeWhile_imp (List.mem_reverse.1 hs), active, up, free⟩

namespace Named

variable {path name : List Char} {before after : List (List Char)}

theorem dropWhile_reverse (h : Named path before name after) :
    (steps path).reverse.dropWhile isIdle = name :: before.reverse := by
  have idle : after.reverse.dropWhile isIdle = [] :=
    List.dropWhile_eq_nil_iff.2 fun s hs => h.idle s (List.mem_reverse.1 hs)
  rw [h.parts, List.reverse_append, List.reverse_cons, List.append_assoc, List.dropWhile_append,
    idle]
  simp [h.name.active]

theorem fileName?_eq (h : Named path before name after) : fileName? path = some name := by
  unfold fileName?
  rw [h.dropWhile_reverse]
  exact if_neg h.name.notUp

theorem slash_notMem_before (h : Named path before name after) : ∀ s ∈ before, '/' ∉ s :=
  fun _ hs => slash_notMem_of_mem_steps path (h.parts ▸ List.mem_append_left _ hs)

theorem path_ne_nil (h : Named path before name after) : path ≠ [] := by
  rintro rfl
  have only : name ∈ steps [] := by
    rw [h.parts]
    exact List.mem_append_right _ (List.mem_cons_self ..)
  exact h.name.ne_nil (List.mem_singleton.1 only)

theorem path_eq (h : Named path before name after) : path = ofSteps (before ++ name :: after) := by
  rw [← h.parts, ofSteps_steps]

theorem name_subset (h : Named path before name after) : name ⊆ path := by
  have part : [name].Sublist (before ++ name :: after) :=
    List.singleton_sublist.2 (List.mem_append_right _ (List.mem_cons_self ..))
  have chars := (ofSteps_sublist part).subset
  rwa [ofSteps_singleton, ← h.path_eq] at chars

/-- A path is absolute if its first step is empty and not the only one. -/
theorem isAbsolute_iff (h : Named path before name after) :
    isAbsolute path = true ↔ before.head? = some [] := by
  rw [h.path_eq]
  unfold isAbsolute
  rw [beq_iff_eq]
  rcases before with _ | ⟨s, rest⟩
  · obtain ⟨c, cs, rfl⟩ := List.exists_cons_of_ne_nil h.name.ne_nil
    have first : (ofSteps ([] ++ (c :: cs) :: after)).head? = some c := by
      rcases after with _ | ⟨t, later⟩
      · rw [List.nil_append, ofSteps_singleton, List.head?_cons]
      · rw [List.nil_append, ofSteps_cons _ (List.cons_ne_nil t later)]
        rfl
    rw [first]
    refine ⟨fun e => absurd h.name.slashFree ?_, fun e => by cases e⟩
    rw [Option.some.inj e]
    exact not_not.2 (List.mem_cons_self ..)
  · rw [List.cons_append, ofSteps_cons s (by simp), List.head?_cons]
    rcases s with _ | ⟨c, cs⟩
    · exact ⟨fun _ => rfl, fun _ => rfl⟩
    · refine ⟨fun e => ?_, fun e => by cases e⟩
      have free := h.slash_notMem_before (c :: cs) (List.mem_cons_self ..)
      rw [Option.some.inj e] at free
      exact absurd (List.mem_cons_self ..) free

end Named

/-! ## Folders -/

/-- The folder of a path; a bare name is in the folder where the path starts. -/
def folder (path : List Char) : List Char :=
  if parent path = [] then ['.'] else parent path

/-- The steps of the folder, from the steps before the name. -/
def lead (before : List (List Char)) : List (List Char) :=
  if before.rdropWhile isIdle ≠ [] then before.rdropWhile isIdle
  else if before.head? = some [] then [[]] else [['.']]

section Lead

variable {before : List (List Char)}

theorem lead_ne_nil (before : List (List Char)) : lead before ≠ [] := by
  unfold lead
  split
  · assumption
  · split <;> exact List.cons_ne_nil _ _

/-- The folder has the steps that lead somewhere, no others but where there are none. -/
theorem filter_lead (before : List (List Char)) :
    (lead before).filter (!isIdle ·) = before.filter (!isIdle ·) := by
  have dropped : ∀ ss : List (List Char),
      (ss.rdropWhile isIdle).filter (!isIdle ·) = ss.filter (!isIdle ·) := by
    intro ss
    induction ss using List.reverseRecOn with
    | nil => rfl
    | append_singleton ss s ih =>
      rw [List.rdropWhile_concat]
      split
      · next idle => rw [ih, List.filter_append]; simp [idle]
      · rfl
  unfold lead
  split
  · exact dropped before
  · next none =>
    rw [← dropped before, not_not.1 none]
    split <;> rfl

theorem slash_notMem_lead (h : ∀ s ∈ before, '/' ∉ s) : ∀ s ∈ lead before, '/' ∉ s := by
  unfold lead
  split
  · exact fun s hs => h s ((List.rdropWhile_prefix isIdle before).subset hs)
  · split <;> simp

theorem head?_lead : (lead before).head? = some [] ↔ before.head? = some [] := by
  unfold lead
  split
  · next some_kept =>
    obtain ⟨s, rest, hk⟩ := List.exists_cons_of_ne_nil some_kept
    obtain ⟨later, hb⟩ := List.rdropWhile_prefix isIdle before
    rw [hk] at hb ⊢
    rw [← hb]
    rfl
  · split
    · next absolute => exact ⟨fun _ => absolute, fun _ => rfl⟩
    · next relative => exact ⟨fun e => (by cases e), fun e => absurd e relative⟩

/-- Unless the name is bare, the steps of the folder are among those before the name. -/
theorem lead_sublist (hne : before ≠ []) : (lead before).Sublist before := by
  obtain ⟨s, rest, rfl⟩ := List.exists_cons_of_ne_nil hne
  unfold lead
  split
  · exact (List.rdropWhile_prefix isIdle _).sublist
  · next none =>
    have idle := List.rdropWhile_eq_nil_iff.1 (not_not.1 none) s (List.mem_cons_self ..)
    unfold isIdle at idle
    rw [Bool.or_eq_true, beq_iff_eq, beq_iff_eq] at idle
    rcases idle with rfl | rfl
    · rw [List.head?_cons, if_pos rfl]
      exact (List.nil_sublist rest).cons_cons []
    · rw [List.head?_cons, if_neg (by simp)]
      exact (List.nil_sublist rest).cons_cons ['.']

end Lead

namespace Named

variable {path name : List Char} {before after : List (List Char)}

theorem parent_eq (h : Named path before name after) :
    parent path =
      if before.rdropWhile isIdle ≠ [] then ofSteps (before.rdropWhile isIdle)
      else if before.head? = some [] then ['/']
      else if before.head? = some ['.'] then ['.'] else [] := by
  unfold parent List.rdropWhile
  rw [h.dropWhile_reverse]
  simp only [List.getLast?_reverse, h.isAbsolute_iff, ne_eq, List.reverse_eq_nil_iff, ite_not]

/-- Steps that end with one that leads somewhere do not end with a slash. -/
theorem getLast?_ofSteps_kept (h : Named path before name after)
    (hk : before.rdropWhile isIdle ≠ []) :
    ∃ c, (ofSteps (before.rdropWhile isIdle)).getLast? = some c ∧ c ≠ '/' := by
  have active := List.rdropWhile_last_not isIdle before hk
  have free := h.slash_notMem_before _
    ((List.rdropWhile_prefix isIdle before).subset (List.getLast_mem hk))
  have some_char : (before.rdropWhile isIdle).getLast hk ≠ [] := fun e => active (by rw [e]; rfl)
  have ends := getLast?_ofSteps_concat (before.rdropWhile isIdle).dropLast some_char
  rw [List.dropLast_append_getLast] at ends
  exact ⟨_, ends.trans (List.getLast?_eq_some_getLast some_char),
    fun e => free (e ▸ List.getLast_mem some_char)⟩

/-- A name taken from the folder of the path makes a path with the steps of the folder. -/
theorem join_folder (h : Named path before name after) {other : List Char} (ho : IsName other) :
    join (folder path) other = ofSteps (lead before ++ [other]) := by
  rw [ofSteps_concat other (lead_ne_nil before)]
  unfold folder lead join
  rw [h.parent_eq, ho.isAbsolute_eq]
  by_cases none : before.rdropWhile isIdle = []
  · rw [if_neg (not_not.2 none), if_neg (not_not.2 none)]
    by_cases absolute : before.head? = some []
    · rw [if_pos absolute, if_pos absolute, ofSteps_singleton]
      rfl
    · rw [if_neg absolute, if_neg absolute, ofSteps_singleton]
      split <;> rfl
  · obtain ⟨c, last, slash⟩ := h.getLast?_ofSteps_kept none
    have some_step : ofSteps (before.rdropWhile isIdle) ≠ [] := fun e => by
      rw [e] at last
      cases last
    rw [if_pos none, if_pos none, if_neg some_step, last]
    simp [some_step, slash]

theorem join_folder_named (h : Named path before name after) {other : List Char}
    (ho : IsName other) : Named (join (folder path) other) (lead before) other [] := by
  refine ⟨?_, fun s hs => absurd hs List.not_mem_nil, ho⟩
  rw [h.join_folder ho, steps_ofSteps _ (List.concat_ne_nil _ _)]
  intro s hs
  rcases List.mem_append.1 hs with hs | hs
  · exact slash_notMem_lead h.slash_notMem_before s hs
  · exact List.mem_singleton.1 hs ▸ ho.slashFree

/-- It is absolute if the path is. -/
theorem isAbsolute_join_folder (h : Named path before name after) {other : List Char}
    (ho : IsName other) : isAbsolute (join (folder path) other) = isAbsolute path := by
  rw [Bool.eq_iff_iff, (h.join_folder_named ho).isAbsolute_iff, h.isAbsolute_iff, head?_lead]

/-- Up to the name its text is part of that of the path, unless the path is a bare name. -/
theorem exists_join_folder (h : Named path before name after) :
    ∃ folderText, (∀ other, IsName other → join (folder path) other = folderText ++ '/' :: other) ∧
      ((before = [] ∧ folderText = ['.']) ∨ (folderText ++ '/' :: name).Sublist path) := by
  have texts := fun other (ho : IsName other) =>
    (h.join_folder ho).trans (ofSteps_concat other (lead_ne_nil before))
  refine ⟨ofSteps (lead before), texts, ?_⟩
  rcases eq_or_ne before [] with rfl | hne
  · refine .inl ⟨rfl, ?_⟩
    unfold lead
    rw [List.rdropWhile_nil, if_neg (not_not.2 rfl), if_neg (by simp), ofSteps_singleton]
  · refine .inr ?_
    rw [← ofSteps_concat name (lead_ne_nil before)]
    conv_rhs => rw [h.path_eq]
    exact ofSteps_sublist ((lead_sublist hne).append ((List.nil_sublist after).cons_cons name))

end Named

/-! ## Extensions -/

/-- A name with an extension is a stem, a dot and the extension. -/
theorem eq_of_splitName {name stem extension : List Char}
    (h : splitName name = (stem, some extension)) :
    name = stem ++ '.' :: extension ∧ stem ≠ [] := by
  unfold splitName at h
  simp only at h
  split at h
  · cases (Prod.mk.inj h).2
  · next dotted =>
    rw [not_or] at dotted
    obtain ⟨hs, he⟩ := Prod.mk.inj h
    have he := Option.some.inj he
    rw [he] at hs dotted
    refine ⟨?_, hs ▸ dotted.2⟩
    rcases hd : name.reverse.dropWhile (· != '.') with _ | ⟨c, rest⟩
    · have parts := List.takeWhile_append_dropWhile (p := (· != '.')) (l := name.reverse)
      rw [hd, List.append_nil] at parts
      rw [parts, List.reverse_reverse] at he
      exact absurd (congrArg List.length he).symm dotted.1
    · obtain ⟨dot, whole⟩ := eq_of_dropWhile_reverse hd
      rw [he, show c = '.' by simpa using dot] at whole
      have count : name.length - extension.length - 1 = rest.reverse.length := by
        rw [whole, List.length_append, List.length_cons]
        omega
      have stem_eq : stem = rest.reverse := by
        rw [← hs, count, whole, List.take_left]
      rw [stem_eq]
      exact whole

/-- A path with an extension has a name that ends with it. -/
theorem exists_named_of_extension? {path stem extension : List Char} (hs : stem? path = some stem)
    (he : extension? path = some extension) :
    stem ≠ [] ∧ ∃ before after, Named path before (stem ++ '.' :: extension) after := by
  unfold stem? at hs
  unfold extension? at he
  obtain ⟨name, hn, he⟩ := Option.bind_eq_some_iff.1 he
  rw [hn, Option.map_some] at hs
  obtain ⟨whole, some_char⟩ := eq_of_splitName (Prod.ext (Option.some.inj hs) he)
  obtain ⟨before, after, named⟩ := exists_named hn
  exact ⟨some_char, before, after, whole ▸ named⟩

/-- A name stays one with another extension. -/
theorem IsName.withExtension {stem extension other : List Char}
    (h : IsName (stem ++ '.' :: extension)) (some_char : stem ≠ []) (hne : other ≠ [])
    (free : '/' ∉ other) : IsName (stem ++ '.' :: other) := by
  obtain ⟨c, cs, rfl⟩ := List.exists_cons_of_ne_nil some_char
  obtain ⟨d, ds, rfl⟩ := List.exists_cons_of_ne_nil hne
  refine ⟨?_, ?_, ?_⟩
  · simp [isIdle]
  · intro e
    have := congrArg List.length e
    simp only [List.cons_append, List.length_cons, List.length_append, List.length_nil] at this
    omega
  · have stem_free : '/' ∉ c :: cs := fun hm => h.slashFree (List.mem_append_left _ hm)
    intro hm
    rcases List.mem_append.1 hm with hm | hm
    · exact stem_free hm
    · rcases List.mem_cons.1 hm with e | hm
      · cases e
      · exact free hm

end Backtest.Path
