/-
The block form of a record, read back. Its lines are scanned one after another, as the members of
the compact form are, and the record of members with distinct names is kept with the same members,
which are in ascending order then (`Json.ofText_block`).
-/
import Backtest.Proofs.Json.Keep
import Backtest.Proofs.Json.Text

namespace Backtest

/-! ## Members in any order -/

namespace Json

variable {name : String} {value : Json} {members members' : List (String × Json)}

/-- No two members have one name. -/
def Distinct (members : List (String × Json)) : Prop :=
  members.Pairwise fun m m' => m.1 ≠ m'.1

theorem Distinct.of_perm (h : members.Perm members') (distinct : Distinct members) :
    Distinct members' :=
  (h.pairwise_iff Ne.symm).1 distinct

theorem perm_insert : ∀ {members : List (String × Json)}, (∀ m ∈ members, name ≠ m.1) →
    (insert name value members).Perm ((name, value) :: members)
  | [], _ => List.Perm.refl _
  | (other, old) :: rest, fresh => by
    have differs : name ≠ other := fresh (other, old) (List.mem_cons_self ..)
    have later := perm_insert fun m hm => fresh m (List.mem_cons_of_mem _ hm)
    unfold insert
    rw [if_neg differs]
    split
    · exact List.Perm.refl _
    · exact (later.cons (other, old)).trans (List.Perm.swap ..)

theorem member?_cons (m : String × Json) (members : List (String × Json)) (name : String) :
    member? (m :: members) name = if m.1 = name then some m.2 else member? members name := by
  by_cases h : m.1 = name <;> simp [member?, h]

/-- If no two members have one name, their order does not decide what is found. -/
theorem member?_perm (h : members.Perm members') (distinct : Distinct members) (name : String) :
    member? members name = member? members' name := by
  induction h with
  | nil => rfl
  | cons m _ ih => rw [member?_cons, member?_cons, ih distinct.of_cons]
  | swap m m' rest =>
    have differs : m'.1 ≠ m.1 := List.rel_of_pairwise_cons distinct (List.mem_cons_self ..)
    rw [member?_cons, member?_cons, member?_cons, member?_cons]
    by_cases here : m.1 = name
    · subst here
      simp [differs]
    · simp [here]
  | trans first _ ih ih' => exact (ih distinct).trans (ih' (distinct.of_perm first))

end Json

namespace JsonDraft

open Json (Distinct blockChars chars memberNumbers)
open JsonToken (tokens tokens_cons isBlank)

variable {members : List (String × Json)} {rest : List Char}

/-- Members with distinct names are kept, in some order, together with those before them. -/
theorem exists_keepMembers {depth : Nat} : ∀ {members before : List (String × Json)},
    Distinct (members ++ before) → (∀ m ∈ members, Kept depth m.2) →
    ∃ kept, keepMembers depth (ofMembers members) before = .ok kept ∧
      kept.Perm (members ++ before)
  | [], before, _, _ => ⟨before, rfl, List.Perm.refl _⟩
  | (name, v) :: later, before, distinct, h => by
    have first : keep depth (ofJson v) = .ok v := h (name, v) (List.mem_cons_self ..)
    have fresh : ∀ m ∈ before, name ≠ m.1 := fun m hm =>
      List.rel_of_pairwise_cons distinct (List.mem_append_right _ hm)
    -- no member has its name, so inserting it only moves it among those before
    have moved : (later ++ Json.insert name v before).Perm ((name, v) :: later ++ before) :=
      ((Json.perm_insert fresh).append_left later).trans List.perm_middle
    obtain ⟨kept, hk, perm⟩ := exists_keepMembers (distinct.of_perm moved.symm)
      fun m hm => h m (List.mem_cons_of_mem _ hm)
    refine ⟨kept, ?_, perm.trans moved⟩
    rw [ofMembers, keepMembers, first]
    exact hk

/-! ## The lines of the block form -/

theorem tokens_blank {c : Char} (blank : isBlank c = true) (rest : List Char) :
    tokens (c :: rest) = tokens rest := by
  rw [tokens, if_pos blank]

/-- Blanks at the end of a text are no tokens. -/
theorem tokens_blanks : ∀ {cs : List Char}, (∀ c ∈ cs, isBlank c = true) → tokens cs = []
  | [], _ => by rw [tokens]
  | c :: cs, blank => by
    rw [tokens_blank (blank c (List.mem_cons_self ..)),
      tokens_blanks fun c hc => blank c (List.mem_cons_of_mem _ hc)]

/-- The line of a member. -/
def lineChars (m : String × Json) : List Char :=
  ' ' :: ' ' :: Json.quote m.1 ++ ':' :: ' ' :: chars m.2

/-- The lines of some members, with commas between them. -/
def linesChars (members : List (String × Json)) : List Char :=
  List.intercalate [',', '\n'] (members.map lineChars)

theorem blockChars_eq (members : List (String × Json)) :
    blockChars members = '\x7b' :: '\n' :: (linesChars members ++ ['\n', '\x7d']) := rfl

theorem getLast?_blockChars (members : List (String × Json)) :
    (blockChars members).getLast? = some '\x7d' := by
  simp [blockChars_eq, List.getLast?_cons]

theorem linesChars_singleton (m : String × Json) : linesChars [m] = lineChars m := by
  simp [linesChars]

theorem linesChars_cons (m m' : String × Json) (more : List (String × Json)) :
    linesChars (m :: m' :: more) = lineChars m ++ ',' :: '\n' :: linesChars (m' :: more) := by
  simp [linesChars, List.intercalate_cons_cons]

theorem tokens_line (name : String) (v : Json) (rest : List Char) :
    tokens (lineChars (name, v) ++ rest) = .text name :: .colon :: tokens (chars v ++ rest) := by
  show tokens (' ' :: ' ' :: (Json.quote name ++ ':' :: ' ' :: chars v) ++ rest) = _
  rw [List.cons_append, List.cons_append, List.append_assoc, List.cons_append, List.cons_append,
    tokens_blank rfl, tokens_blank rfl, tokens_name, tokens_blank rfl]

/-- The lines of some members start with the name of the first. -/
theorem exists_tokens_lines (name : String) (v : Json) (more : List (String × Json))
    (rest : List Char) :
    ∃ ts, tokens (linesChars ((name, v) :: more) ++ rest) = .text name :: ts := by
  cases more with
  | nil =>
    rw [linesChars_singleton]
    exact ⟨_, tokens_line name v rest⟩
  | cons m more =>
    rw [linesChars_cons, List.append_assoc]
    exact ⟨_, tokens_line name v _⟩

/-- After the lines of its members a record has been read, together with the members before them. -/
theorem readKey_lines {name : String} {v : Json} {more : List (String × Json)}
    (fits : ∀ n ∈ memberNumbers ((name, v) :: more), n.FitsWord) (rest : List Char)
    (before : List Member) (around : List Frame) :
    readKey (tokens (linesChars ((name, v) :: more) ++ '\n' :: '\x7d' :: rest)) around before =
      readAfter (tokens rest) around
        (.record (before.reverse ++ ofMembers ((name, v) :: more)) .closed) := by
  induction more generalizing name v before with
  | nil =>
    have first := readValue_chars v (ends_lineFeed ('\x7d' :: rest))
      (fun n hn => fits n (List.mem_append_left _ hn)) (.record before (.ok name) :: around)
    rw [linesChars_singleton, tokens_line, readKey_text, first, tokens_blank rfl,
      tokens_closeRecord, readAfter_record_close, List.reverse_cons]
    rfl
  | cons m more ih =>
    obtain ⟨name', w⟩ := m
    have first := readValue_chars v
      (ends_comma ('\n' :: (linesChars ((name', w) :: more) ++ '\n' :: '\x7d' :: rest)))
      (fun n hn => fits n (List.mem_append_left _ hn)) (.record before (.ok name) :: around)
    obtain ⟨ts, second⟩ := exists_tokens_lines name' w more ('\n' :: '\x7d' :: rest)
    have later := ih (fun n hn => fits n (List.mem_append_right _ hn))
      ((.ok name, ofJson v) :: before)
    rw [second] at later
    rw [linesChars_cons, List.append_assoc, List.cons_append, List.cons_append, tokens_line,
      readKey_text, first, tokens_comma, tokens_blank rfl, second, readAfter_record_comma, later,
      List.reverse_cons, List.append_assoc]
    rfl

/-- The block form of a record is read as its draft, and blanks after it count for nothing. -/
theorem ofText_block (fits : ∀ n ∈ memberNumbers members, n.FitsWord)
    (blank : ∀ c ∈ rest, isBlank c = true) :
    ofText (String.ofList (blockChars members ++ rest)) = ⟨ofJson (.record members), false⟩ := by
  have spread : blockChars members ++ rest =
      '\x7b' :: '\n' :: (linesChars members ++ '\n' :: '\x7d' :: rest) := by
    rw [blockChars_eq]
    simp
  unfold ofText
  rw [String.toList_ofList, spread, tokens_openRecord, tokens_blank rfl]
  rcases members with _ | ⟨⟨name, v⟩, more⟩
  · show readValue (.openRecord :: tokens ('\n' :: '\x7d' :: rest)) [] = _
    rw [tokens_blank rfl, tokens_closeRecord, tokens_blanks blank, readValue, readAfter]
    rfl
  · have read := readKey_lines fits rest [] []
    obtain ⟨ts, first⟩ := exists_tokens_lines name v more ('\n' :: '\x7d' :: rest)
    rw [first] at read
    rw [first, readValue_openRecord, read, tokens_blanks blank, readAfter]
    rfl

end JsonDraft

/-- The block form of a record whose members have distinct names is the text of that record, with
its members in some order, also if blanks follow it. -/
theorem Json.ofText_block {members : List (String × Json)} {rest : List Char}
    (distinct : Distinct members) (fits : ∀ n ∈ memberNumbers members, n.FitsWord)
    (kept : ∀ m ∈ members, JsonDraft.Kept (JsonDraft.maxDepth - 1) m.2)
    (blank : ∀ c ∈ rest, JsonToken.isBlank c = true) :
    ∃ members', Json.ofText (String.ofList (blockChars members ++ rest)) = .ok (.record members') ∧
      members'.Perm members := by
  rw [← List.append_nil members] at distinct
  obtain ⟨members', hk, perm⟩ := JsonDraft.exists_keepMembers distinct kept
  rw [List.append_nil] at perm
  refine ⟨members', ?_, perm⟩
  unfold Json.ofText
  rw [JsonDraft.ofText_block fits blank, JsonDraft.ofJson]
  dsimp only
  rw [JsonDraft.keep, if_neg (by decide), hk]
  rfl

end Backtest
