/-
Records of known fields. However a record is written, it is read by putting drafts into the blank
record, so what holds of the blank one and is left alone by every field holds of it
(`read_invariant`). An object with the fields in their declared order is read by putting them in one
after the other (`read_declared`).
-/
import Backtest.Json.Shape
import Backtest.Proofs.Chain
import Mathlib.Data.List.Basic

namespace Backtest.JsonShape

variable {α : Type} {shape : JsonShape α} {origin : DraftOrigin} {depth : Nat}

/-! ## What every field leaves alone -/

section Invariant

variable {P : α → Prop}

theorem putMembers_invariant
    (put : ∀ f ∈ shape.fields, ∀ d r r', P r → f.put depth d r = .ok r' → P r') :
    ∀ {members : List JsonDraft.Member} {seen seen' : List String} {r r' : α}, P r →
      shape.putMembers depth members seen r = .ok (seen', r') → P r'
  | [], seen, seen', r, r', hr, h => by
    rw [putMembers] at h
    cases h
    exact hr
  | (key, d) :: rest, seen, seen', r, r', hr, h => by
    rw [putMembers] at h
    obtain ⟨name, -, h⟩ := bind_eq_ok_iff.1 h
    split at h
    · obtain ⟨_, -, h⟩ := bind_eq_ok_iff.1 h
      exact putMembers_invariant put hr h
    · next f hf =>
      split at h
      · cases h
      · obtain ⟨r₁, h₁, h⟩ := bind_eq_ok_iff.1 h
        exact putMembers_invariant put (put f (List.mem_of_find?_eq_some hf) d r r₁ hr h₁) h

theorem putItems_invariant {wanted : String} {surplus : DecodeError} {finish : JsonFinish} :
    ∀ {fields : List (JsonField α)} {items : List JsonDraft} {index : Nat} {r r' : α},
      (∀ f ∈ fields, ∀ d r r', P r → f.put depth d r = .ok r' → P r') → P r →
      putItems wanted surplus depth fields items finish index r = .ok r' → P r'
  | [], [], index, r, r', put, hr, h => by
    cases finish <;> rw [putItems] at h <;> cases h
    exact hr
  | [], d :: items, index, r, r', put, hr, h => by
    rw [putItems] at h
    cases h
  | f :: fields, d :: items, index, r, r', put, hr, h => by
    rw [putItems] at h
    obtain ⟨r₁, h₁, h⟩ := bind_eq_ok_iff.1 h
    exact putItems_invariant (fun g hg => put g (List.mem_cons_of_mem _ hg))
      (put f (List.mem_cons_self ..) d r r₁ hr h₁) h
  | f :: fields, [], index, r, r', put, hr, h => by
    cases finish <;> rw [putItems] at h
    · split at h
      · cases h
      · exact putItems_invariant (fun g hg => put g (List.mem_cons_of_mem _ hg)) hr h
    · cases h

/-- What holds of the blank record and is left alone by every field holds of what is read. -/
theorem read_invariant {d : JsonDraft} {r : α} (h : shape.read origin depth d = .ok r)
    (blank : P shape.blank)
    (put : ∀ f ∈ shape.fields, ∀ d r r', P r → f.put (depth - 1) d r = .ok r' → P r') : P r := by
  unfold read at h
  split at h
  · split at h
    · cases h
    · obtain ⟨⟨seen, r'⟩, hp, h⟩ := bind_eq_ok_iff.1 h
      obtain ⟨_, -, h⟩ := bind_eq_ok_iff.1 h
      have holds := putMembers_invariant put blank hp
      split at h
      · cases h
      · cases h
        exact holds
  · split at h
    · cases h
    · exact putItems_invariant put blank h
  · cases h

end Invariant

/-! ## Objects in declared order -/

/-- Put one draft into each field, in order. -/
def putAll (depth : Nat) : List (JsonField α) → List JsonDraft → α → Except DecodeError α
  | f :: fields, d :: ds, r => do
    let r ← f.put depth d r
    putAll depth fields ds r
  | _, _, r => .ok r

/-- The members that give each field its draft. -/
def declared (fields : List (JsonField α)) (ds : List JsonDraft) : List JsonDraft.Member :=
  List.zipWith (fun f d => (.ok f.name, d)) fields ds

theorem putMembers_declared : ∀ (fields : List (JsonField α)) (ds : List JsonDraft)
    (seen : List String) (r : α), ds.length = fields.length →
    (∀ f ∈ fields, shape.field? f.name = some f ∧ f.name ∉ seen) →
    (fields.map (·.name)).Nodup →
    shape.putMembers depth (declared fields ds) seen r =
      (putAll depth fields ds r).map ((fields.map (·.name)).reverse ++ seen, ·)
  | [], [], seen, r, _, _, _ => rfl
  | f :: fields, d :: ds, seen, r, length, known, names => by
    obtain ⟨found, fresh⟩ := known f (List.mem_cons_self ..)
    have not_seen : seen.contains f.name = false := by simpa using fresh
    rw [List.map_cons, List.nodup_cons] at names
    rw [declared, List.zipWith_cons_cons, putMembers, putAll]
    simp only [JsonDraft.orFlaw, bind, Except.bind, found, not_seen, Bool.false_eq_true, if_false]
    rcases f.put depth d r with e | r'
    · rfl
    dsimp only
    have later := putMembers_declared fields ds (f.name :: seen) r' (Nat.succ.inj length)
      (fun g hg => ⟨(known g (List.mem_cons_of_mem _ hg)).1, fun hm => ?_⟩) names.2
    · rw [declared] at later
      rw [later, List.map_cons, List.reverse_cons, List.append_assoc, List.singleton_append]
    · rcases List.mem_cons.1 hm with same | hm
      · exact names.1 (same ▸ List.mem_map_of_mem hg)
      · exact (known g (List.mem_cons_of_mem _ hg)).2 hm

/-- An object with the fields in declared order is read by putting them in one after the other. -/
theorem read_declared (origin : DraftOrigin) (pos : depth ≠ 0)
    (found : ∀ f ∈ shape.fields, shape.field? f.name = some f)
    (names : (shape.fields.map (·.name)).Nodup) (ds : List JsonDraft)
    (length : ds.length = shape.fields.length) :
    shape.read origin depth (.record (declared shape.fields ds) .closed) =
      putAll (depth - 1) shape.fields ds shape.blank := by
  unfold read
  dsimp only
  rw [if_neg pos, putMembers_declared shape.fields ds [] shape.blank length
    (fun f hf => ⟨found f hf, List.not_mem_nil⟩) names]
  rcases putAll (depth - 1) shape.fields ds shape.blank with e | r
  · rfl
  · -- no required field is missing, since all are given
    have all_seen : ∀ f ∈ shape.fields, (f.required && !((shape.fields.map
        fun g : JsonField α => g.name).reverse ++ []).contains f.name) = false := by
      rintro f hf
      have seen : f.name ∈ (shape.fields.map fun g : JsonField α => g.name).reverse ++ [] := by
        rw [List.append_nil, List.mem_reverse]
        exact List.mem_map_of_mem hf
      rw [List.contains_iff_mem.2 seen, Bool.not_true, Bool.and_false]
    have none_missing := List.find?_eq_none.2 fun f hf => Bool.eq_false_iff.1 (all_seen f hf)
    simp only [Except.map, bind, Except.bind, JsonFinish.keep, JsonDraft.orFlaw, none_missing]

end Backtest.JsonShape
