/-
Reading the compact text of a value. Each part of the text is scanned as tokens while the draft
that the part stands for is read from them, so the whole text is read as the draft of the value,
with nothing left over.
-/
import Backtest.Json.Draft
import Backtest.Proofs.Json.Scan

namespace Backtest

namespace Json

mutual

/-- The numbers in a value. -/
def numbers : Json → List JsonNumber
  | .number n => [n]
  | .list items => itemNumbers items
  | .record members => memberNumbers members
  | _ => []

def itemNumbers : List Json → List JsonNumber
  | [] => []
  | v :: rest => numbers v ++ itemNumbers rest

def memberNumbers : List (String × Json) → List JsonNumber
  | [] => []
  | (_, v) :: rest => numbers v ++ memberNumbers rest

end

end Json

namespace JsonDraft

open Json (chars itemChars memberChars numbers itemNumbers memberNumbers)
open JsonToken (tokens tokens_cons tokens_quote tokens_number Ends)

/-! ## Steps of reading -/

section Steps

variable {t : JsonToken} (ts : List JsonToken) (around : List Frame)

theorem readValue_openList (h : t ≠ .closeList) :
    readValue (.openList :: t :: ts) around = readValue (t :: ts) (.list [] :: around) := by
  rw [readValue]
  · exact nofun
  · rintro rest e
    exact h (List.cons.inj e).1

theorem readAfter_list_comma (h : t ≠ .closeList) (before : List JsonDraft) (d : JsonDraft) :
    readAfter (.comma :: t :: ts) (.list before :: around) d =
      readValue (t :: ts) (.list (d :: before) :: around) := by
  rw [readAfter]
  · exact nofun
  · rintro rest e
    exact h (List.cons.inj e).1

theorem readAfter_list_close (before : List JsonDraft) (d : JsonDraft) :
    readAfter (.closeList :: ts) (.list before :: around) d =
      readAfter ts around (.list (d :: before).reverse .closed) := by
  rw [readAfter]

theorem readValue_openRecord (name : String) :
    readValue (.openRecord :: .text name :: ts) around = readKey (.text name :: ts) around [] := by
  rw [readValue]
  · exact nofun
  · exact nofun

theorem readKey_text (name : String) (before : List Member) :
    readKey (.text name :: .colon :: ts) around before =
      readValue ts (.record before (.ok name) :: around) := by
  rw [readKey, readColon]

theorem readAfter_record_comma (name : String) (before : List Member) (key : Except JsonFlaw String)
    (d : JsonDraft) :
    readAfter (.comma :: .text name :: ts) (.record before key :: around) d =
      readKey (.text name :: ts) around ((key, d) :: before) := by
  rw [readAfter]
  · exact nofun
  · exact nofun

theorem readAfter_record_close (before : List Member) (key : Except JsonFlaw String)
    (d : JsonDraft) :
    readAfter (.closeRecord :: ts) (.record before key :: around) d =
      readAfter ts around (.record ((key, d) :: before).reverse .closed) := by
  rw [readAfter]

end Steps

/-! ## Reading what is printed -/

theorem ends_comma (rest : List Char) : Ends (',' :: rest) := by
  rintro c ⟨⟩
  exact .inl rfl

theorem ends_closeList (rest : List Char) : Ends (']' :: rest) := by
  rintro c ⟨⟩
  exact .inr (.inl rfl)

theorem ends_closeRecord (rest : List Char) : Ends ('\x7d' :: rest) := by
  rintro c ⟨⟩
  exact .inr (.inr (.inl rfl))

theorem ends_lineFeed (rest : List Char) : Ends ('\n' :: rest) := by
  rintro c ⟨⟩
  exact .inr (.inr (.inr rfl))

theorem tokens_openList (rest : List Char) : tokens ('[' :: rest) = .openList :: tokens rest :=
  tokens_cons rfl rfl

theorem tokens_closeList (rest : List Char) : tokens (']' :: rest) = .closeList :: tokens rest :=
  tokens_cons rfl rfl

theorem tokens_openRecord (rest : List Char) :
    tokens ('\x7b' :: rest) = .openRecord :: tokens rest :=
  tokens_cons rfl rfl

theorem tokens_closeRecord (rest : List Char) :
    tokens ('\x7d' :: rest) = .closeRecord :: tokens rest :=
  tokens_cons rfl rfl

theorem tokens_comma (rest : List Char) : tokens (',' :: rest) = .comma :: tokens rest :=
  tokens_cons rfl rfl

theorem tokens_colon (rest : List Char) : tokens (':' :: rest) = .colon :: tokens rest :=
  tokens_cons rfl rfl

/-- The first token of a value closes nothing. -/
theorem exists_tokens_chars (v : Json) {rest : List Char} (h : Ends rest)
    (fits : ∀ n ∈ numbers v, n.FitsWord) :
    ∃ t ts, tokens (chars v ++ rest) = t :: ts ∧ t ≠ .closeList := by
  cases v with
  | null => exact ⟨.null, _, tokens_cons rfl rfl, nofun⟩
  | boolean b =>
    cases b
    · exact ⟨.boolean false, _, tokens_cons rfl rfl, nofun⟩
    · exact ⟨.boolean true, _, tokens_cons rfl rfl, nofun⟩
  | number n => exact ⟨_, _, tokens_number h (fits n (List.mem_singleton_self n)), nofun⟩
  | text s => exact ⟨_, _, tokens_quote s rest, nofun⟩
  | list items => exact ⟨_, _, tokens_openList _, nofun⟩
  | record members => exact ⟨_, _, tokens_openRecord _, nofun⟩

theorem exists_tokens_itemChars (v : Json) (more : List Json) (rest : List Char)
    (fits : ∀ n ∈ numbers v, n.FitsWord) :
    ∃ t ts, tokens (itemChars (v :: more) ++ ']' :: rest) = t :: ts ∧ t ≠ .closeList := by
  cases more with
  | nil => exact exists_tokens_chars v (ends_closeList rest) fits
  | cons w more =>
    rw [itemChars, List.append_assoc]
    exact exists_tokens_chars v (ends_comma _) fits

/-- The text of a member starts with its name and a colon. -/
theorem tokens_name (name : String) (rest : List Char) :
    tokens (Json.quote name ++ ':' :: rest) = .text name :: .colon :: tokens rest := by
  rw [tokens_quote, tokens_colon]

/-- The text of some members starts with the name of the first. -/
theorem exists_tokens_memberChars (name : String) (v : Json) (more : List (String × Json))
    (rest : List Char) :
    ∃ ts, tokens (memberChars ((name, v) :: more) ++ rest) = .text name :: ts := by
  cases more with
  | nil =>
    rw [memberChars, List.append_assoc]
    exact ⟨_, tokens_quote name _⟩
  | cons m more =>
    rw [memberChars, List.append_assoc, List.append_assoc]
    exact ⟨_, tokens_quote name _⟩

mutual

/-- After its text a value has been read. -/
theorem readValue_chars : ∀ (v : Json) {rest : List Char}, Ends rest →
    (∀ n ∈ numbers v, n.FitsWord) → ∀ around : List Frame,
    readValue (tokens (chars v ++ rest)) around = readAfter (tokens rest) around (ofJson v)
  | .null, rest, _, _, around => by
    have first : tokens (chars .null ++ rest) = .null :: tokens rest := tokens_cons rfl rfl
    rw [first, readValue, ofJson]
  | .boolean b, rest, _, _, around => by
    have first : tokens (chars (.boolean b) ++ rest) = .boolean b :: tokens rest := by
      cases b <;> exact tokens_cons rfl rfl
    rw [first, readValue, ofJson]
  | .number n, rest, h, fits, around => by
    rw [chars, tokens_number h (fits n (List.mem_singleton_self n)), readValue, ofJson]
  | .text s, rest, _, _, around => by
    rw [chars, tokens_quote, readValue, ofJson]
  | .list [], rest, _, _, around => by
    show readValue (tokens ('[' :: ']' :: rest)) around = _
    rw [tokens_openList, tokens_closeList, readValue, ofJson, ofItems]
  | .list (v :: more), rest, _, fits, around => by
    obtain ⟨t, ts, first, other⟩ := exists_tokens_itemChars v more rest
      fun n hn => fits n (List.mem_append_left _ hn)
    have items := readValue_itemChars v more rest fits [] around
    rw [first] at items
    rw [chars, List.cons_append, List.cons_append, List.append_assoc, List.singleton_append,
      tokens_openList, first, readValue_openList ts around other, items, ofJson]
    rfl
  | .record [], rest, _, _, around => by
    show readValue (tokens ('\x7b' :: '\x7d' :: rest)) around = _
    rw [tokens_openRecord, tokens_closeRecord, readValue, ofJson, ofMembers]
  | .record ((name, v) :: more), rest, _, fits, around => by
    obtain ⟨ts, first⟩ := exists_tokens_memberChars name v more ('\x7d' :: rest)
    have members := readKey_memberChars name v more rest fits [] around
    rw [first] at members
    rw [chars, List.cons_append, List.cons_append, List.append_assoc, List.singleton_append,
      tokens_openRecord, first, readValue_openRecord, members, ofJson]
    rfl
termination_by v => sizeOf v

/-- After the text of its items a list has been read, together with the items before them. -/
theorem readValue_itemChars : ∀ (v : Json) (more : List Json) (rest : List Char),
    (∀ n ∈ itemNumbers (v :: more), n.FitsWord) → ∀ (before : List JsonDraft) (around : List Frame),
    readValue (tokens (itemChars (v :: more) ++ ']' :: rest)) (.list before :: around) =
      readAfter (tokens rest) around (.list (before.reverse ++ ofItems (v :: more)) .closed)
  | v, [], rest, fits, before, around => by
    have first := readValue_chars v (ends_closeList rest)
      (fun n hn => fits n (List.mem_append_left _ hn)) (.list before :: around)
    rw [itemChars, first, tokens_closeList, readAfter_list_close, List.reverse_cons]
    rfl
  | v, w :: more, rest, fits, before, around => by
    have first := readValue_chars v (ends_comma (itemChars (w :: more) ++ ']' :: rest))
      (fun n hn => fits n (List.mem_append_left _ hn)) (.list before :: around)
    have fits' : ∀ n ∈ itemNumbers (w :: more), n.FitsWord :=
      fun n hn => fits n (List.mem_append_right _ hn)
    obtain ⟨t, ts, second, other⟩ := exists_tokens_itemChars w more rest
      fun n hn => fits' n (List.mem_append_left _ hn)
    have later := readValue_itemChars w more rest fits' (ofJson v :: before) around
    rw [second] at later
    rw [itemChars, List.append_assoc, List.cons_append, first, tokens_comma, second,
      readAfter_list_comma ts around other, later, List.reverse_cons, List.append_assoc]
    rfl
termination_by v more => sizeOf (v :: more)

/-- After the text of its members a record has been read, together with the members before them. -/
theorem readKey_memberChars : ∀ (name : String) (v : Json) (more : List (String × Json))
    (rest : List Char), (∀ n ∈ memberNumbers ((name, v) :: more), n.FitsWord) →
    ∀ (before : List Member) (around : List Frame),
    readKey (tokens (memberChars ((name, v) :: more) ++ '\x7d' :: rest)) around before =
      readAfter (tokens rest) around
        (.record (before.reverse ++ ofMembers ((name, v) :: more)) .closed)
  | name, v, [], rest, fits, before, around => by
    have first := readValue_chars v (ends_closeRecord rest)
      (fun n hn => fits n (List.mem_append_left _ hn)) (.record before (.ok name) :: around)
    rw [memberChars, List.append_assoc, List.cons_append, tokens_name, readKey_text, first,
      tokens_closeRecord, readAfter_record_close, List.reverse_cons]
    rfl
  | name, v, (name', w) :: more, rest, fits, before, around => by
    have first := readValue_chars v
      (ends_comma (memberChars ((name', w) :: more) ++ '\x7d' :: rest))
      (fun n hn => fits n (List.mem_append_left _ hn)) (.record before (.ok name) :: around)
    obtain ⟨ts, second⟩ := exists_tokens_memberChars name' w more ('\x7d' :: rest)
    have later := readKey_memberChars name' w more rest
      (fun n hn => fits n (List.mem_append_right _ hn)) ((.ok name, ofJson v) :: before) around
    rw [second] at later
    rw [memberChars, List.append_assoc, List.append_assoc, List.cons_append, List.cons_append,
      tokens_name, readKey_text, first, tokens_comma, second, readAfter_record_comma, later,
      List.reverse_cons, List.append_assoc]
    rfl
termination_by name v more => sizeOf ((name, v) :: more)

end

/-- The compact text of a value is read as its draft, with nothing left over. -/
theorem ofText_compact {v : Json} (fits : ∀ n ∈ v.numbers, n.FitsWord) :
    ofText v.compact = ⟨ofJson v, false⟩ := by
  have whole : readValue (tokens (chars v ++ [])) [] = readAfter (tokens []) [] (ofJson v) :=
    readValue_chars v (show Ends [] from nofun) fits []
  rw [List.append_nil] at whole
  unfold ofText Json.compact
  rw [String.toList_ofList, whole, JsonToken.tokens, readAfter]
  rfl

end JsonDraft

end Backtest
