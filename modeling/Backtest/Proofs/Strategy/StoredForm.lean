/-
The stored form of strategies. Whatever form a definition is read from, its parts are such that they
are read back from what is stored of them (`ReadsBack`), from the parameters up to the rules, and so
the definition is read back from its compact text.
-/
import Backtest.Proofs.Json.Keep
import Backtest.Proofs.Json.Shape
import Backtest.Proofs.Json.Text
import Backtest.Strategy.Reader

namespace Backtest

/-- The value is read back from what is stored of it, within the given levels of nesting. -/
def ReadsBack {β : Type} (read : Nat → JsonDraft → Except DecodeError β) (json : β → Json)
    (depth : Nat) (b : β) : Prop :=
  read depth (.ofJson (json b)) = .ok b

/-- What is stored of a value that may be missing. -/
def optionalJson {β : Type} (json : β → Json) : Option β → Json
  | none => .null
  | some b => json b

/-! ## Parts of any type -/

section Parts

open JsonDraft (keepMembers ofItems readItems readMembers)

variable {β : Type} {read : Nat → JsonDraft → Except DecodeError β} {json : β → Json}
variable {depth : Nat} {d : JsonDraft}

theorem orFlaw_eq_ok_iff {x : Except JsonFlaw β} {b : β} :
    JsonDraft.orFlaw x = .ok b ↔ x = .ok b := by
  rcases x with e | b' <;> simp [JsonDraft.orFlaw]

theorem readsBack_no_members (pos : depth ≠ 0) : ReadsBack readMembers .record depth [] := by
  unfold ReadsBack
  rw [JsonDraft.ofJson, readMembers, if_neg pos]
  rfl

/-- Parameters are in ascending order and their values were kept. -/
theorem readsBack_members {members : List (String × Json)}
    (h : readMembers depth d = .ok members) : ReadsBack readMembers .record depth members := by
  unfold readMembers at h
  split at h
  · split at h
    · cases h
    · next pos =>
      obtain ⟨ms, hm, h⟩ := bind_eq_ok_iff.1 h
      obtain ⟨_, -, h⟩ := bind_eq_ok_iff.1 h
      cases pure_eq_ok_iff.1 h
      obtain ⟨ascending, kept⟩ := JsonDraft.kept_of_keepMembers _ (orFlaw_eq_ok_iff.1 hm)
        List.Pairwise.nil fun _ h => absurd h List.not_mem_nil
      have again : keepMembers (depth - 1) (JsonDraft.ofMembers members) [] = .ok members :=
        JsonDraft.keepMembers_ofMembers ascending kept
      unfold ReadsBack
      rw [JsonDraft.ofJson, readMembers, if_neg pos, again]
      rfl
  · cases h

theorem readsBack_value {v : Json} (h : readValue depth d = .ok v) :
    ReadsBack readValue id depth v := by
  unfold ReadsBack readValue
  exact orFlaw_eq_ok_iff.2 (JsonDraft.kept_of_keep d (orFlaw_eq_ok_iff.1 h))

theorem ofItems_eq_map : ∀ vs : List Json, ofItems vs = vs.map JsonDraft.ofJson
  | [] => by rw [ofItems, List.map_nil]
  | v :: vs => by rw [ofItems, ofItems_eq_map vs, List.map_cons]

theorem readsBack_list {bs : List β} (pos : depth ≠ 0)
    (h : ∀ b ∈ bs, ReadsBack read json (depth - 1) b) :
    ReadsBack (readItems read) (fun bs => .list (bs.map json)) depth bs := by
  have items : (ofItems (bs.map json)).mapM (read (depth - 1)) = .ok bs := by
    rw [mapM_eq_ok_iff, ofItems_eq_map, List.map_map, List.map_map]
    exact List.map_congr_left h
  unfold ReadsBack
  rw [JsonDraft.ofJson, readItems, if_neg pos, items]
  rfl

theorem readsBack_items {bs : List β} (h : readItems read depth d = .ok bs)
    (each : ∀ d b, read (depth - 1) d = .ok b → ReadsBack read json (depth - 1) b) :
    ReadsBack (readItems read) (fun bs => .list (bs.map json)) depth bs := by
  unfold readItems at h
  split at h
  · split at h
    · cases h
    · next pos =>
      obtain ⟨found, hm, h⟩ := bind_eq_ok_iff.1 h
      obtain ⟨_, -, h⟩ := bind_eq_ok_iff.1 h
      cases pure_eq_ok_iff.1 h
      refine readsBack_list pos fun b hb => ?_
      obtain ⟨d, -, hd⟩ := step_of_mem (mapM_eq_ok_iff.1 hm) hb
      exact each d b hd
  · cases h

theorem readOptional_of_ne_null (h : d ≠ .null) :
    readOptional read depth d = (read depth d).map some := by
  unfold readOptional
  split
  · exact absurd rfl h
  · rcases read depth _ with e | b <;> rfl

/-- A value that may be missing is read back if it is not stored as `null`. -/
theorem readsBack_optional {ob : Option β} (h : readOptional read depth d = .ok ob)
    (each : ∀ b, d ≠ .null → read depth d = .ok b → ReadsBack read json depth b ∧ json b ≠ .null) :
    ReadsBack (readOptional read) (optionalJson json) depth ob := by
  by_cases missing : d = .null
  · subst missing
    cases h
    rfl
  · rw [readOptional_of_ne_null missing] at h
    rcases hb : read depth d with e | b
    · rw [hb] at h
      cases h
    · rw [hb] at h
      cases h
      obtain ⟨back, some_value⟩ := each b missing hb
      have draft : JsonDraft.ofJson (json b) ≠ .null := by
        intro e
        cases hj : json b with
        | null => exact some_value hj
        | _ => rw [hj, JsonDraft.ofJson] at e; cases e
      unfold ReadsBack optionalJson
      dsimp only
      rw [readOptional_of_ne_null draft]
      unfold ReadsBack at back
      rw [back]
      rfl

end Parts

/-! ## Fields -/

section Fields

variable {α β : Type} {P : α → Prop} {depth : Nat}

/-- What does not depend on the text of a field is left alone by it. -/
theorem textField_keeps {name : String} {aliases : List String} {required : Bool}
    {set : α → String → α} (keeps : ∀ r s, P r → P (set r s)) :
    ∀ d r r', P r → (textField name aliases required set).put depth d r = .ok r' → P r' := by
  intro d r r' hr hput
  obtain ⟨s, -, h⟩ := bind_eq_ok_iff.1 hput
  cases pure_eq_ok_iff.1 h
  exact keeps r s hr

theorem otherField_keeps {name : String} {required : Bool}
    {read : Nat → JsonDraft → Except DecodeError β} {set : α → β → α}
    (keeps : ∀ d r b, P r → read depth d = .ok b → P (set r b)) :
    ∀ d r r', P r → (otherField name required read set).put depth d r = .ok r' → P r' := by
  intro d r r' hr hput
  obtain ⟨b, hb, h⟩ := bind_eq_ok_iff.1 hput
  cases pure_eq_ok_iff.1 h
  exact keeps d r b hr hb

end Fields

/-! ## Indicators -/

namespace IndicatorDefinition

variable {origin : DraftOrigin} {depth : Nat} {d : JsonDraft} {i : IndicatorDefinition}

theorem readsBack_of_params (origin : DraftOrigin) (pos : depth ≠ 0)
    (h : ReadsBack JsonDraft.readMembers .record (depth - 1) i.params) :
    ReadsBack (shape.read origin) json depth i := by
  have found : ∀ f ∈ shape.fields, shape.field? f.name = some f := by
    unfold shape
    simp only [List.forall_mem_cons]
    exact ⟨rfl, rfl, nofun⟩
  have read := JsonShape.read_declared origin pos found (by decide)
    [.text i.kind, .ofJson (.record i.params)] rfl
  unfold ReadsBack at h ⊢
  refine read.trans ?_
  simp [shape, JsonShape.putAll, textField, otherField, JsonDraft.readText, h, bind, Except.bind,
    pure, Except.pure]

/-- An indicator is read back with its parameters. -/
theorem readsBack (deep : 2 ≤ depth) (h : shape.read origin depth d = .ok i) :
    ReadsBack (shape.read origin) json depth i := by
  have inner : depth - 1 ≠ 0 := by omega
  refine readsBack_of_params origin (by omega) ?_
  refine JsonShape.read_invariant (P := fun i => ReadsBack _ _ _ i.params) h
    (readsBack_no_members inner) ?_
  unfold shape
  simp only [List.forall_mem_cons]
  exact ⟨textField_keeps fun _ _ hi => hi,
    otherField_keeps fun _ _ _ _ hp => readsBack_members hp, nofun⟩

end IndicatorDefinition

/-! ## Conditions -/

namespace ConditionDefinition

variable {origin : DraftOrigin} {depth : Nat} {d : JsonDraft} {c : ConditionDefinition}

/-- The parts of a condition that are not plain texts are read back. -/
structure PartsReadBack (origin : DraftOrigin) (depth : Nat) (c : ConditionDefinition) : Prop where
  left : ReadsBack (IndicatorDefinition.shape.read origin) IndicatorDefinition.json depth c.left
  operandValue : ReadsBack (readOptional readValue) (optionalJson id) depth c.operandValue
  operandParams : ReadsBack JsonDraft.readMembers .record depth c.operandParams

theorem readsBack_of_parts (pos : depth ≠ 0) (h : c.PartsReadBack origin (depth - 1)) :
    ReadsBack ((shape origin).read origin) json depth c := by
  have found : ∀ f ∈ (shape origin).fields, (shape origin).field? f.name = some f := by
    unfold shape
    simp only [List.forall_mem_cons]
    exact ⟨rfl, rfl, rfl, rfl, rfl, nofun⟩
  have value : c.operandValue.getD .null = optionalJson id c.operandValue := by
    cases c.operandValue <;> rfl
  obtain ⟨left, operandValue, operandParams⟩ := h
  have read := JsonShape.read_declared origin pos found (by cases origin <;> decide)
    [.ofJson c.left.json, .text c.operator, .text c.operandType,
      .ofJson (c.operandValue.getD .null), .ofJson (.record c.operandParams)] rfl
  rw [value] at read
  unfold ReadsBack at left operandValue operandParams ⊢
  rw [json, value]
  refine read.trans ?_
  simp [shape, JsonShape.putAll, textField, otherField, JsonDraft.readText, left, operandValue,
    operandParams, bind, Except.bind, pure, Except.pure]

/-- A condition is read back with its operand: a value that is stored as `null` is none. -/
theorem readsBack (deep : 3 ≤ depth) (h : (shape origin).read origin depth d = .ok c) :
    ReadsBack ((shape origin).read origin) json depth c := by
  have inner : depth - 1 ≠ 0 := by omega
  have params : depth - 1 - 1 ≠ 0 := by omega
  refine readsBack_of_parts (by omega) ?_
  refine JsonShape.read_invariant (P := fun c => c.PartsReadBack origin (depth - 1)) h ?_ ?_
  · exact ⟨IndicatorDefinition.readsBack_of_params origin inner (readsBack_no_members params), rfl,
      readsBack_no_members inner⟩
  unfold shape
  simp only [List.forall_mem_cons]
  refine ⟨otherField_keeps ?_, textField_keeps ?_, textField_keeps ?_, otherField_keeps ?_,
    otherField_keeps ?_, nofun⟩
  · intro d c i hc hi
    exact ⟨IndicatorDefinition.readsBack (by omega) hi, hc.operandValue, hc.operandParams⟩
  · intro c s hc
    exact ⟨hc.left, hc.operandValue, hc.operandParams⟩
  · intro c s hc
    exact ⟨hc.left, hc.operandValue, hc.operandParams⟩
  · intro d c v hc hv
    refine ⟨hc.left, readsBack_optional hv fun v some_draft hv => ?_, hc.operandParams⟩
    refine ⟨readsBack_value hv, ?_⟩
    rintro rfl
    exact some_draft (JsonDraft.eq_null_of_keep (orFlaw_eq_ok_iff.1 hv))
  · intro d c params hc hp
    exact ⟨hc.left, hc.operandValue, readsBack_members hp⟩

end ConditionDefinition

/-! ## Rules -/

namespace RuleDefinition

variable {origin : DraftOrigin} {depth : Nat} {d : JsonDraft} {r : RuleDefinition}

/-- What is stored of a list of conditions, which may be missing. -/
def conditionsJson : Option (List ConditionDefinition) → Json :=
  optionalJson fun cs => .list (cs.map ConditionDefinition.json)

def readConditions (origin : DraftOrigin) :
    Nat → JsonDraft → Except DecodeError (Option (List ConditionDefinition)) :=
  readOptional (JsonDraft.readItems ((ConditionDefinition.shape origin).read origin))

theorem json_eq (r : RuleDefinition) :
    r.json = .record [("action", .text r.action), ("conditions", conditionsJson r.conditions)] := by
  unfold json
  rcases r.conditions with _ | cs <;> rfl

theorem readsBack_of_conditions (pos : depth ≠ 0)
    (h : ReadsBack (readConditions origin) conditionsJson (depth - 1) r.conditions) :
    ReadsBack ((shape origin).read origin) json depth r := by
  have found : ∀ f ∈ (shape origin).fields, (shape origin).field? f.name = some f := by
    unfold shape
    simp only [List.forall_mem_cons]
    exact ⟨rfl, rfl, nofun⟩
  have read := JsonShape.read_declared origin pos found (by cases origin <;> decide)
    [.text r.action, .ofJson (conditionsJson r.conditions)] rfl
  unfold ReadsBack readConditions at h
  unfold ReadsBack
  rw [json_eq]
  refine read.trans ?_
  simp [shape, JsonShape.putAll, textField, otherField, JsonDraft.readText, h, bind, Except.bind,
    pure, Except.pure]

/-- A rule is read back: without a list of conditions none is stored, and an empty one is. -/
theorem readsBack (deep : 5 ≤ depth) (h : (shape origin).read origin depth d = .ok r) :
    ReadsBack ((shape origin).read origin) json depth r := by
  refine readsBack_of_conditions (by omega) ?_
  refine JsonShape.read_invariant
    (P := fun r => ReadsBack (readConditions origin) conditionsJson (depth - 1) r.conditions)
    h ?_ ?_
  · exact (rfl : ReadsBack (readConditions origin) conditionsJson (depth - 1) none)
  unfold shape
  simp only [List.forall_mem_cons]
  refine ⟨textField_keeps fun _ _ hr => hr, otherField_keeps ?_, nofun⟩
  intro d r cs _ hcs
  refine readsBack_optional hcs fun cs _ hcs => ⟨?_, nofun⟩
  exact readsBack_items hcs fun d c hc => ConditionDefinition.readsBack (by omega) hc

end RuleDefinition

/-! ## Definitions -/

namespace Definition

variable {origin : DraftOrigin} {depth : Nat} {draft : JsonDraft} {d : Definition}

theorem readsBack_of_rules (pos : depth ≠ 0)
    (h : ReadsBack (JsonDraft.readItems ((RuleDefinition.shape origin).read origin))
      (fun rs => .list (rs.map RuleDefinition.json)) (depth - 1) d.rules) :
    ReadsBack ((shape origin).read origin) json depth d := by
  have found : ∀ f ∈ (shape origin).fields, (shape origin).field? f.name = some f := by
    unfold shape
    simp only [List.forall_mem_cons]
    exact ⟨rfl, rfl, rfl, rfl, rfl, nofun⟩
  have read := JsonShape.read_declared origin pos found (by cases origin <;> decide)
    [.text d.id, .text d.name, .text d.owner, .text d.description,
      .ofJson (.list (d.rules.map RuleDefinition.json))] rfl
  unfold ReadsBack at h ⊢
  refine read.trans ?_
  simp [shape, JsonShape.putAll, textField, otherField, JsonDraft.readText, h, bind, Except.bind,
    pure, Except.pure]

/-- The rules of a definition are read back. -/
theorem rules_readBack (deep : 7 ≤ depth) (h : (shape origin).read origin depth draft = .ok d) :
    ReadsBack (JsonDraft.readItems ((RuleDefinition.shape origin).read origin))
      (fun rs => .list (rs.map RuleDefinition.json)) (depth - 1) d.rules := by
  have inner : depth - 1 ≠ 0 := by omega
  refine JsonShape.read_invariant (P := fun d => ReadsBack _ _ (depth - 1) d.rules) h
    (readsBack_list inner nofun) ?_
  unfold shape
  simp only [List.forall_mem_cons]
  refine ⟨textField_keeps fun _ _ hd => hd, textField_keeps fun _ _ hd => hd,
    textField_keeps fun _ _ hd => hd, textField_keeps fun _ _ hd => hd, otherField_keeps ?_, nofun⟩
  intro x d rs _ hrs
  exact readsBack_items hrs fun x r hr => RuleDefinition.readsBack (by omega) hr

/-- A definition that was loaded from a text is loaded again, as it is, from its compact text under
the same name of the file, if the numbers in it are whole ones of 64 bits. -/
theorem ofText_compact_json {fileId text : String} (h : ofText fileId text = .ok d)
    (fits : ∀ n ∈ d.json.numbers, n.FitsWord) : ofText fileId d.json.compact = .ok d := by
  unfold ofText at h
  obtain ⟨loaded, hl, h⟩ := bind_eq_ok_iff.1 h
  have rules := rules_readBack (by decide) hl
  split at h
  · cases h
  have named := pure_eq_ok_iff.1 h
  have rules_eq : d.rules = loaded.rules := by
    rw [← named]
    split <;> rfl
  rw [← rules_eq] at rules
  have back := readsBack_of_rules (by decide) rules
  unfold ReadsBack at back
  unfold ofText
  rw [JsonDraft.ofText_compact fits]
  dsimp only
  rw [back]
  show Except.ok (if d.id = "" then { d with id := fileId } else d) = .ok d
  split
  · next blank =>
    -- only a blank name of the file leaves the identifier blank
    have same : fileId = d.id := by
      rw [← named] at blank ⊢
      split at blank
      · next none_given => rw [if_pos none_given]
      · next given => exact absurd blank given
    rw [same]
  · rfl

/-- A text with an item form and an object form of rules, a name and a value with escapes, a
condition list that is missing, one that is `null` and one that is empty, a member that is unknown
and one that is given twice. -/
theorem ofText_compact_json_of_forms :
    let text := "\x7b\"name\":\"S\\u0001\\ud83d\\ude00\",\"userEmail\":\"me\",\"extra\":[1.5e3]," ++
      "\"rules\":[[\"BUY\"],\x7b\"action\":\"SELL\",\"conditions\":null\x7d," ++
      "\x7b\"action\":\"BUY\",\"conditions\":[]\x7d," ++
      "[\"SELL\",[\x7b\"indicatorA\":[\"PRICE\",\x7b\"b\":[\"\\t\"],\"a\":-1,\"b\":[[]]\x7d]," ++
      "\"operator\":\"X\",\"indicatorBType\":\"VALUE\",\"indicatorBValue\":null\x7d]]]\x7d"
    ∃ d, ofText "f" text = .ok d ∧ [d.id, d.owner] = ["f", "me"] ∧
      d.rules.map (·.conditions.map List.length) = [none, none, some 0, some 1] ∧
      d.json.numbers = [.whole (-1)] ∧ ofText "f" d.json.compact = .ok d := by
  intro text
  let seen (d : Definition) :=
    ([d.id, d.owner], d.rules.map (·.conditions.map List.length), d.json.numbers)
  have outcome : (ofText "f" text).toOption.map seen =
      some (["f", "me"], [none, none, some 0, some 1], [.whole (-1)]) := by
    decide +kernel
  obtain ⟨d, hd, hs⟩ := exists_of_toOption_map outcome
  obtain ⟨names, conditions, numbers⟩ : [d.id, d.owner] = ["f", "me"] ∧
      d.rules.map (·.conditions.map List.length) = [none, none, some 0, some 1] ∧
      d.json.numbers = [.whole (-1)] := by
    simpa [seen] using hs
  have fits : ∀ n ∈ d.json.numbers, n.FitsWord := by
    rw [numbers]
    simp [JsonNumber.FitsWord]
  exact ⟨d, hd, names, conditions, numbers, ofText_compact_json hd fits⟩

end Definition

end Backtest
