/-
Keeping values. A value that was kept has the members of its records in ascending order, so keeping
it once more gives it again.
-/
import Backtest.Json.Draft
import Backtest.Proofs.Chain
import Mathlib.Data.String.Basic

namespace Backtest

/-! ## Ascending members -/

namespace Json

variable {name : String} {value : Json} {members : List (String × Json)}

/-- Members in strictly ascending order of their names. -/
def Ascending (members : List (String × Json)) : Prop :=
  members.Pairwise fun m m' => m.1 < m'.1

theorem mem_insert : ∀ {members : List (String × Json)} {m : String × Json},
    m ∈ insert name value members → m = (name, value) ∨ m ∈ members
  | [], m, h => .inl (List.mem_singleton.1 h)
  | (other, old) :: rest, m, h => by
    unfold insert at h
    split at h
    · exact List.mem_cons.1 h
    · split at h
      · rcases List.mem_cons.1 h with h | h
        · exact .inl h
        · exact .inr (List.mem_cons_of_mem _ h)
      · rcases List.mem_cons.1 h with rfl | h
        · exact .inr (List.mem_cons_self ..)
        · exact (mem_insert h).imp_right (List.mem_cons_of_mem _)

theorem Ascending.insert (name : String) (value : Json) :
    ∀ {members : List (String × Json)}, Ascending members →
      Ascending (Json.insert name value members)
  | [], _ => List.pairwise_singleton _ _
  | (other, old) :: rest, h => by
    obtain ⟨first, later⟩ := List.pairwise_cons.1 h
    unfold Json.insert
    split
    · next before =>
      refine List.pairwise_cons.2 ⟨fun m hm => ?_, h⟩
      rcases List.mem_cons.1 hm with rfl | hm
      · exact before
      · exact lt_trans before (first m hm)
    · next not_before =>
      split
      · next same =>
        subst same
        exact List.pairwise_cons.2 ⟨first, later⟩
      · next differs =>
        refine List.pairwise_cons.2 ⟨fun m hm => ?_, Ascending.insert name value later⟩
        rcases mem_insert hm with rfl | hm
        · exact lt_of_le_of_ne (not_lt.1 not_before) (Ne.symm differs)
        · exact first m hm

theorem insert_of_forall_lt : ∀ {members : List (String × Json)}, (∀ m ∈ members, m.1 < name) →
    insert name value members = members ++ [(name, value)]
  | [], _ => rfl
  | (other, old) :: rest, h => by
    have below := h (other, old) (List.mem_cons_self ..)
    rw [insert, if_neg (not_lt_of_gt below), if_neg (ne_of_gt below),
      insert_of_forall_lt fun m hm => h m (List.mem_cons_of_mem _ hm), List.cons_append]

end Json

/-! ## Keeping -/

namespace JsonDraft

open Json (Ascending)

variable {depth : Nat}

/-- A value that is kept as it is. -/
def Kept (depth : Nat) (v : Json) : Prop :=
  keep depth (ofJson v) = .ok v

theorem keepItems_ofItems : ∀ {vs : List Json}, (∀ v ∈ vs, Kept depth v) →
    keepItems depth (ofItems vs) = .ok vs
  | [], _ => by rw [ofItems, keepItems]
  | v :: vs, h => by
    have first : keep depth (ofJson v) = .ok v := h v (List.mem_cons_self ..)
    rw [ofItems, keepItems, first, keepItems_ofItems fun w hw => h w (List.mem_cons_of_mem _ hw)]
    rfl

theorem keepMembers_ofMembers : ∀ {members before : List (String × Json)},
    Ascending (before ++ members) → (∀ m ∈ members, Kept depth m.2) →
      keepMembers depth (ofMembers members) before = .ok (before ++ members)
  | [], before, _, _ => by rw [ofMembers, keepMembers, List.append_nil]
  | (name, v) :: rest, before, ascending, h => by
    have first : keep depth (ofJson v) = .ok v := h (name, v) (List.mem_cons_self ..)
    have below : ∀ m ∈ before, m.1 < name := fun m hm =>
      (List.pairwise_append.1 ascending).2.2 m hm (name, v) (List.mem_cons_self ..)
    have inserted : Ascending ((before ++ [(name, v)]) ++ rest) := by
      rwa [List.append_assoc, List.singleton_append]
    have later := keepMembers_ofMembers inserted fun m hm => h m (List.mem_cons_of_mem _ hm)
    rw [List.append_assoc, List.singleton_append] at later
    rw [ofMembers, keepMembers, first]
    show keepMembers depth (ofMembers rest) (Json.insert name v before) = _
    rw [Json.insert_of_forall_lt below, later]

theorem kept_list {items : List Json} (pos : depth ≠ 0) (h : ∀ v ∈ items, Kept (depth - 1) v) :
    Kept depth (.list items) := by
  unfold Kept
  rw [ofJson, keep, if_neg pos, keepItems_ofItems h]
  rfl

theorem kept_record {members : List (String × Json)} (pos : depth ≠ 0)
    (ascending : Ascending members) (h : ∀ m ∈ members, Kept (depth - 1) m.2) :
    Kept depth (.record members) := by
  have members_kept : keepMembers (depth - 1) (ofMembers members) [] = .ok members :=
    keepMembers_ofMembers ascending h
  unfold Kept
  rw [ofJson, keep, if_neg pos, members_kept]
  rfl

mutual

/-- What was kept is kept as it is. -/
theorem kept_of_keep : ∀ (d : JsonDraft) {depth : Nat} {v : Json}, keep depth d = .ok v →
    Kept depth v
  | .null, depth, v, h => by
    cases h
    rfl
  | .boolean b, depth, v, h => by
    cases h
    rfl
  | .number n, depth, v, h => by
    cases h
    rfl
  | .text s, depth, v, h => by
    cases h
    rfl
  | .spoilt flaw, depth, v, h => by
    rw [keep] at h
    cases h
  | .broken kept skipped, depth, v, h => by
    rw [keep] at h
    cases h
  | .list items finish, depth, v, h => by
    rw [keep] at h
    split at h
    · cases h
    · next pos =>
      obtain ⟨vs, hv, h⟩ := bind_eq_ok_iff.1 h
      obtain ⟨_, -, h⟩ := bind_eq_ok_iff.1 h
      cases pure_eq_ok_iff.1 h
      exact kept_list pos (kept_of_keepItems items hv)
  | .record members finish, depth, v, h => by
    rw [keep] at h
    split at h
    · cases h
    · next pos =>
      obtain ⟨ms, hm, h⟩ := bind_eq_ok_iff.1 h
      obtain ⟨_, -, h⟩ := bind_eq_ok_iff.1 h
      cases pure_eq_ok_iff.1 h
      obtain ⟨ascending, kept⟩ := kept_of_keepMembers members hm List.Pairwise.nil nofun
      exact kept_record pos ascending kept

theorem kept_of_keepItems : ∀ (ds : List JsonDraft) {depth : Nat} {vs : List Json},
    keepItems depth ds = .ok vs → ∀ v ∈ vs, Kept depth v
  | [], depth, vs, h => by
    rw [keepItems] at h
    cases h
    exact nofun
  | d :: ds, depth, vs, h => by
    rw [keepItems] at h
    obtain ⟨first, hf, h⟩ := bind_eq_ok_iff.1 h
    obtain ⟨later, hl, h⟩ := bind_eq_ok_iff.1 h
    cases pure_eq_ok_iff.1 h
    rintro v hv
    rcases List.mem_cons.1 hv with rfl | hv
    · exact kept_of_keep d hf
    · exact kept_of_keepItems ds hl v hv

/-- Members that are added to kept ones in ascending order leave such members. -/
theorem kept_of_keepMembers : ∀ (ds : List Member) {depth : Nat}
    {before members : List (String × Json)}, keepMembers depth ds before = .ok members →
    Ascending before → (∀ m ∈ before, Kept depth m.2) →
    Ascending members ∧ ∀ m ∈ members, Kept depth m.2
  | [], depth, before, members, h, ascending, kept => by
    rw [keepMembers] at h
    cases h
    exact ⟨ascending, kept⟩
  | (key, d) :: ds, depth, before, members, h, ascending, kept => by
    rw [keepMembers] at h
    obtain ⟨name, -, h⟩ := bind_eq_ok_iff.1 h
    obtain ⟨value, hv, h⟩ := bind_eq_ok_iff.1 h
    refine kept_of_keepMembers ds h (ascending.insert name value) fun m hm => ?_
    rcases Json.mem_insert hm with rfl | hm
    · exact kept_of_keep d hv
    · exact kept m hm

end

/-- Only `null` is kept as `null`. -/
theorem eq_null_of_keep {d : JsonDraft} (h : keep depth d = .ok .null) : d = .null := by
  cases d with
  | null => rfl
  | list items finish =>
    rw [keep] at h
    split at h
    · cases h
    · obtain ⟨_, -, h⟩ := bind_eq_ok_iff.1 h
      obtain ⟨_, -, h⟩ := bind_eq_ok_iff.1 h
      cases h
  | record members finish =>
    rw [keep] at h
    split at h
    · cases h
    · obtain ⟨_, -, h⟩ := bind_eq_ok_iff.1 h
      obtain ⟨_, -, h⟩ := bind_eq_ok_iff.1 h
      cases h
  | _ =>
    rw [keep] at h
    cases h

end JsonDraft
end Backtest
