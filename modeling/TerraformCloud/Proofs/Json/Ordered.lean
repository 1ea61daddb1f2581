/-
  TerraformCloud/Proofs/Json/Ordered.lean
  =======================================
  **Values whose members are in order.**

  An object says the same in whatever order its members are written.  So a document is
  brought into one form before it is sent, with the members of every object in
  ascending order of their keys (`Canonical`), and a document that was read has that
  form, too (`canonical_of_value?`).  Bringing a value into order keeps what it says: its
  numbers, its depth, and below every key what was there, as long as no object has a key
  twice (`Distinct`).
-/
import TerraformCloud.Proofs.Json.Tree
import TerraformCloud.Proofs.Keyed
import TerraformCloud.Proofs.Lists

namespace TerraformCloud.Json

/-! ## 1. Depth -/

mutual
/-- How many containers are nested. -/
def Tree.depth {σ ν : Type} : Tree σ ν → Nat
  | .array items => depthOfItems items + 1
  | .object members => depthOfMembers members + 1
  | _ => 0

def Tree.depthOfItems {σ ν : Type} : List (Tree σ ν) → Nat
  | [] => 0
  | v :: rest => max (depth v) (depthOfItems rest)

def Tree.depthOfMembers {σ ν : Type} : List (σ × Tree σ ν) → Nat
  | [] => 0
  | (_, v) :: rest => max (depth v) (depthOfMembers rest)
end

section Depth

variable {σ ν : Type}

theorem Tree.depthOfItems_le_iff {items : List (Tree σ ν)} {n : Nat} :
    depthOfItems items ≤ n ↔ ∀ v ∈ items, v.depth ≤ n := by
  induction items with
  | nil => simp [depthOfItems]
  | cons v items ih => rw [depthOfItems, Nat.max_le, ih, List.forall_mem_cons]

theorem Tree.depthOfMembers_le_iff {members : List (σ × Tree σ ν)} {n : Nat} :
    depthOfMembers members ≤ n ↔ ∀ m ∈ members, m.2.depth ≤ n := by
  induction members with
  | nil => simp [depthOfMembers]
  | cons m members ih => rw [depthOfMembers, Nat.max_le, ih, List.forall_mem_cons]

theorem Tree.depth_array_le_iff {items : List (Tree σ ν)} {n : Nat} :
    (Tree.array items).depth ≤ n ↔ 0 < n ∧ ∀ v ∈ items, v.depth ≤ n - 1 := by
  rw [depth, ← depthOfItems_le_iff]
  omega

theorem Tree.depth_object_le_iff {members : List (σ × Tree σ ν)} {n : Nat} :
    (Tree.object members).depth ≤ n ↔ 0 < n ∧ ∀ m ∈ members, m.2.depth ≤ n - 1 := by
  rw [depth, ← depthOfMembers_le_iff]
  omega

end Depth

namespace Value

/-! ## 2. Keys -/

mutual
/-- The keys of every object of the document are as `P` says. -/
def Keys (P : List String → Prop) : Value → Prop
  | .array items => KeysOfItems P items
  | .object members => P (members.map (·.1)) ∧ KeysOfMembers P members
  | _ => True

def KeysOfItems (P : List String → Prop) : List Value → Prop
  | [] => True
  | v :: rest => Keys P v ∧ KeysOfItems P rest

def KeysOfMembers (P : List String → Prop) : List (String × Value) → Prop
  | [] => True
  | (_, v) :: rest => Keys P v ∧ KeysOfMembers P rest
end

/-- No object of the document has a key twice. -/
def Distinct : Value → Prop := Keys List.Nodup

/-- The members of every object are in ascending order of their keys. -/
def Canonical : Value → Prop := Keys (List.Pairwise (· < ·))

section Keys

variable {P Q : List String → Prop}

theorem keys_array_iff (items : List Value) :
    Keys P (.array items) ↔ ∀ v ∈ items, Keys P v := by
  rw [Keys]
  induction items with
  | nil => simp [KeysOfItems]
  | cons v items ih => rw [KeysOfItems, ih, List.forall_mem_cons]

theorem keys_object_iff (members : List (String × Value)) :
    Keys P (.object members) ↔ P (members.map (·.1)) ∧ ∀ m ∈ members, Keys P m.2 := by
  have hmembers : KeysOfMembers P members ↔ ∀ m ∈ members, Keys P m.2 := by
    induction members with
    | nil => simp [KeysOfMembers]
    | cons m members ih => rw [KeysOfMembers, ih, List.forall_mem_cons]
  rw [Keys, hmembers]

theorem Keys.imp (h : ∀ keys, P keys → Q keys) {v : Value} (hv : Keys P v) : Keys Q v := by
  induction v using Tree.induct with
  | array items ih =>
    rw [keys_array_iff] at hv ⊢
    exact fun v hmem => ih v hmem (hv v hmem)
  | object members ih =>
    rw [keys_object_iff] at hv ⊢
    exact ⟨h _ hv.1, fun m hm => ih m hm (hv.2 m hm)⟩
  | _ => unfold Keys; trivial

end Keys

theorem Canonical.distinct {v : Value} (h : v.Canonical) : v.Distinct := by
  refine Keys.imp (fun keys hkeys => hkeys.imp ?_) h
  rintro a b hlt rfl
  exact String.lt_irrefl _ hlt

/-! ## 3. Bringing members into order -/

theorem insertMember_eq (key : String) (v : Value) (members : List (String × Value)) :
    insertMember key v members = Keyed.alterEntries key (fun _ => v) members := by
  induction members with
  | nil => rfl
  | cons m members ih => rw [insertMember, Keyed.alterEntries, ih]

/-- Members in order are the entries of a map. -/
theorem orderMembers_eq (members : List (String × Value)) :
    orderMembers members = (Keyed.ofList members).entries := by
  have hfold : ∀ (m : Keyed Value), members.foldl (fun acc e => insertMember e.1 e.2 acc) m.entries =
      (members.foldl (fun m e => m.insert e.1 e.2) m).entries := by
    induction members with
    | nil => exact fun m => rfl
    | cons e members ih =>
      intro m
      rw [List.foldl_cons, List.foldl_cons, ← ih, insertMember_eq]
      rfl
  exact hfold .empty

/-- Of an object that has no key twice every member stays. -/
theorem perm_orderMembers {members : List (String × Value)} (h : (members.map (·.1)).Nodup) :
    (orderMembers members).Perm members := by
  rw [orderMembers_eq]
  exact Keyed.perm_ofList h

theorem mem_orderMembers {m : String × Value} {members : List (String × Value)}
    (h : m ∈ orderMembers members) : m ∈ members := by
  rw [orderMembers_eq] at h
  exact Keyed.mem_of_mem_ofList h

theorem orderMembers_of_ascending {members : List (String × Value)}
    (h : members.Pairwise (fun a b => a.1 < b.1)) : orderMembers members = members := by
  rw [orderMembers_eq]
  exact congrArg Keyed.entries (Keyed.ofList_entries ⟨members, h⟩)

/-- A member of an ordered object is a member, ordered. -/
theorem mem_ordered_members {m : String × Value} {members : List (String × Value)}
    (h : m ∈ orderMembers (members.map fun m => (m.1, m.2.ordered))) :
    ∃ n ∈ members, m = (n.1, n.2.ordered) := by
  obtain ⟨n, hn, rfl⟩ := List.mem_map.1 (mem_orderMembers h)
  exact ⟨n, hn, rfl⟩

theorem canonical_ordered (v : Value) : v.ordered.Canonical := by
  induction v using Tree.induct with
  | array items ih =>
    rw [ordered_array, Canonical, keys_array_iff, List.forall_mem_map]
    exact ih
  | object members ih =>
    rw [ordered_object, Canonical, keys_object_iff]
    refine ⟨?_, fun m hm => ?_⟩
    · rw [orderMembers_eq]
      exact Keyed.keys_ascending _
    · obtain ⟨n, hn, rfl⟩ := mem_ordered_members hm
      exact ih n hn
  | _ => unfold ordered Canonical Keys; trivial

/-- **A value in order stays as it is.** -/
theorem ordered_of_canonical {v : Value} (h : v.Canonical) : v.ordered = v := by
  induction v using Tree.induct with
  | array items ih =>
    rw [Canonical, keys_array_iff] at h
    rw [ordered_array]
    exact congrArg Tree.array ((List.map_congr_left fun v hv => ih v hv (h v hv)).trans (List.map_id _))
  | object members ih =>
    rw [Canonical, keys_object_iff] at h
    have hmembers : members.map (fun m => (m.1, ordered m.2)) = members := by
      refine (List.map_congr_left fun m hm => ?_).trans (List.map_id _)
      rw [ih m hm (h.2 m hm)]
      rfl
    rw [ordered_object, hmembers, orderMembers_of_ascending (List.pairwise_map.1 h.1)]
  | _ => rw [ordered] <;> intros <;> contradiction

theorem depth_ordered_le {v : Value} {n : Nat} (h : v.depth ≤ n) : v.ordered.depth ≤ n := by
  induction v using Tree.induct generalizing n with
  | array items ih =>
    rw [Tree.depth_array_le_iff] at h
    rw [ordered_array, Tree.depth_array_le_iff, List.forall_mem_map]
    exact ⟨h.1, fun v hv => ih v hv (h.2 v hv)⟩
  | object members ih =>
    rw [Tree.depth_object_le_iff] at h
    rw [ordered_object, Tree.depth_object_le_iff]
    refine ⟨h.1, fun m hm => ?_⟩
    obtain ⟨k, hk, rfl⟩ := mem_ordered_members hm
    exact ih k hk (h.2 k hk)
  | _ => exact Nat.zero_le n

theorem mem_numbers_of_ordered {v : Value} {n : Number} (h : n ∈ v.ordered.numbers) :
    n ∈ v.numbers := by
  induction v using Tree.induct with
  | array items ih =>
    rw [ordered_array, Tree.mem_numbers_array] at h
    obtain ⟨w, hw, hn⟩ := h
    obtain ⟨v, hv, rfl⟩ := List.mem_map.1 hw
    exact Tree.mem_numbers_array.2 ⟨v, hv, ih v hv hn⟩
  | object members ih =>
    rw [ordered_object, Tree.mem_numbers_object] at h
    obtain ⟨m, hm, hn⟩ := h
    obtain ⟨k, hk, rfl⟩ := mem_ordered_members hm
    exact Tree.mem_numbers_object.2 ⟨k, hk, ih k hk hn⟩
  | _ => exact h

end Value

/-! ## 4. Values of documents -/

namespace Written

open Value

/-- **A document that was written from a value holds it, with its members in order.** -/
theorem value?_written {v : Value} {depth : Nat} (h : v.depth ≤ depth) :
    value? depth v.written = some v.ordered := by
  induction v using Tree.induct generalizing depth with
  | array items ih =>
    obtain ⟨hpos, hitems⟩ := Tree.depth_array_le_iff.1 h
    have hread : ∀ v ∈ items, value? (depth - 1) (written v) = some (ordered v) :=
      fun v hv => ih v hv (hitems v hv)
    rw [written_array, ordered_array, value?, if_neg (by omega), values?_eq, List.mapM_map]
    exact congrArg (Option.map Tree.array) (mapM_eq_some_map hread)
  | object members ih =>
    obtain ⟨hpos, hmembers⟩ := Tree.depth_object_le_iff.1 h
    have hread : ∀ m ∈ members, memberValue? (depth - 1) (some m.1, written m.2) =
        some (m.1, ordered m.2) := by
      intro m hm
      rw [memberValue?, ih m hm (hmembers m hm)]
    rw [written_object, ordered_object, value?, if_neg (by omega), memberValues?_eq, List.mapM_map]
    exact congrArg (Option.map fun ms => Tree.object (orderMembers ms)) (mapM_eq_some_map hread)
  | _ => rfl

/-- What is known of the value of a document. -/
structure Holds (depth : Nat) (w : Written) (v : Value) : Prop where
  canonical : v.Canonical
  depth_le : v.depth ≤ depth
  numbers : ∀ n ∈ v.numbers, some n ∈ w.numbers

section Holds

variable {depth : Nat}

theorem Holds.array {items : List Written} {vs : List Value} (hpos : 0 < depth)
    (h : ∀ v ∈ vs, ∃ w ∈ items, Holds (depth - 1) w v) : Holds depth (.array items) (.array vs) where
  canonical := by
    rw [Canonical, keys_array_iff]
    intro v hv
    obtain ⟨w, -, hholds⟩ := h v hv
    exact hholds.canonical
  depth_le := by
    refine Tree.depth_array_le_iff.2 ⟨hpos, fun v hv => ?_⟩
    obtain ⟨w, -, hholds⟩ := h v hv
    exact hholds.depth_le
  numbers n hn := by
    obtain ⟨v, hv, hn⟩ := Tree.mem_numbers_array.1 hn
    obtain ⟨w, hw, hholds⟩ := h v hv
    exact Tree.mem_numbers_array.2 ⟨w, hw, hholds.numbers n hn⟩

theorem Holds.object {members : List (Option String × Written)} {ms : List (String × Value)}
    (hpos : 0 < depth) (hkeys : (ms.map (·.1)).Pairwise (· < ·))
    (h : ∀ m ∈ ms, ∃ k ∈ members, Holds (depth - 1) k.2 m.2) :
    Holds depth (.object members) (.object ms) where
  canonical := by
    rw [Canonical, keys_object_iff]
    refine ⟨hkeys, fun m hm => ?_⟩
    obtain ⟨k, -, hholds⟩ := h m hm
    exact hholds.canonical
  depth_le := by
    refine Tree.depth_object_le_iff.2 ⟨hpos, fun m hm => ?_⟩
    obtain ⟨k, -, hholds⟩ := h m hm
    exact hholds.depth_le
  numbers n hn := by
    obtain ⟨m, hm, hn⟩ := Tree.mem_numbers_object.1 hn
    obtain ⟨k, hk, hholds⟩ := h m hm
    exact Tree.mem_numbers_object.2 ⟨k, hk, hholds.numbers n hn⟩

/-- **The value of a document is in order, no deeper than allowed, and has no other numbers.** -/
theorem holds_of_value? {w : Written} {v : Value} (h : value? depth w = some v) : Holds depth w v := by
  induction w using Tree.induct generalizing depth v with
  | null =>
    cases h
    exact ⟨trivial, Nat.zero_le _, fun n hn => absurd hn List.not_mem_nil⟩
  | bool b =>
    cases h
    exact ⟨trivial, Nat.zero_le _, fun n hn => absurd hn List.not_mem_nil⟩
  | number x =>
    obtain ⟨n, rfl, rfl⟩ := Option.map_eq_some_iff.1 h
    refine ⟨trivial, Nat.zero_le _, fun m hm => ?_⟩
    rw [Tree.numbers, List.mem_singleton] at hm ⊢
    rw [hm]
  | string s =>
    obtain ⟨s, rfl, rfl⟩ := Option.map_eq_some_iff.1 h
    exact ⟨trivial, Nat.zero_le _, fun n hn => absurd hn List.not_mem_nil⟩
  | array items ih =>
    rw [value?, values?_eq] at h
    split at h
    · cases h
    next hpos =>
    obtain ⟨vs, hvs, rfl⟩ := Option.map_eq_some_iff.1 h
    refine .array (Nat.pos_of_ne_zero hpos) fun v hv => ?_
    obtain ⟨w, hw, hwv⟩ := exists_mem_of_mapM hvs hv
    exact ⟨w, hw, ih w hw hwv⟩
  | object members ih =>
    rw [value?, memberValues?_eq] at h
    split at h
    · cases h
    next hpos =>
    obtain ⟨ms, hms, rfl⟩ := Option.map_eq_some_iff.1 h
    have hkeys : ((orderMembers ms).map (·.1)).Pairwise (· < ·) := by
      rw [orderMembers_eq]
      exact Keyed.keys_ascending _
    refine .object (Nat.pos_of_ne_zero hpos) hkeys fun m hm => ?_
    obtain ⟨⟨key, w⟩, hk, hkm⟩ := exists_mem_of_mapM hms (mem_orderMembers hm)
    refine ⟨(key, w), hk, ?_⟩
    rw [memberValue?] at hkm
    split at hkm
    · next heq =>
      cases hkm
      exact ih _ hk heq
    · cases hkm

end Holds

end Written
end TerraformCloud.Json
