/-
  TerraformCloud/Proofs/JsonApi/Stable.lean
  =========================================
  **Resources are read alike in any order.**

  Every part of a resource document looks up its members by name, so each reader is
  stable because the readers of its parts are.  Two are not of that form: what a
  relationship points at, which may have three shapes, and the relationships
  themselves, which are members of any name and are kept in order whatever order they
  came in.
-/
import TerraformCloud.JsonApi.Document
import TerraformCloud.Proofs.Schema.Stable

namespace TerraformCloud

open Json (Value Written Tree)
open Json.Value (written ordered)
open Schema (Stable Fits slotsWithin?_cases stable_items textOf?_ordered written_ne_null
  ordered_ne_null)

/-! ## 1. Values -/

theorem stable_value? : Stable Written.value? := by
  intro v d d' hfits
  rw [Json.Written.value?_written hfits.depth_le',
    Json.Written.value?_written (Json.Value.depth_ordered_le hfits.depth_le),
    Json.Value.ordered_of_canonical (Json.Value.canonical_ordered v)]

/-- What was found may be read by a stable reader, or be missing. -/
theorem elim_stable {β : Type} {read? : Nat → Written → Option β} (h : Stable read?) (missing : Option β)
    {x : Option Value} {d d' : Nat} (hx : ∀ v, x = some v → Fits v d d') :
    (x.map fun v => v.ordered.written).elim missing (read? d) =
      (x.map written).elim missing (read? d') := by
  cases x with
  | none => rfl
  | some v => exact h v d d' (hx v rfl)

/-! ## 2. Relationships -/

theorem Identifier.stable : Stable Identifier.read? := by
  intro v d d' hfits
  unfold Identifier.read?
  rcases slotsWithin?_cases hfits ["type", "id"] with ⟨h, h'⟩ | ⟨found, hlength, -, h, h'⟩
  · rw [h, h']
  · obtain ⟨type, id, rfl⟩ := List.length_eq_two.1 hlength
    rw [h, h']
    cases type <;> cases id <;> simp [textOf?_ordered]

theorem Linkage.readShape?_stable : Stable Linkage.readShape? := by
  intro v d d' hfits
  have hlist : ((Schema.itemsOf? v.ordered.written).bind (·.mapM (Identifier.read? (d - 1)))) =
      (Schema.itemsOf? v.written).bind (·.mapM (Identifier.read? (d' - 1))) := by
    cases v with
    | array items =>
      obtain ⟨hpos, hpos', -⟩ := hfits.item
      have hitems := stable_items Identifier.stable _ d d' hfits
      dsimp only at hitems
      rwa [if_neg (by omega), if_neg (by omega)] at hitems
    | object members => simp [Schema.itemsOf?]
    | _ => rfl
  unfold Linkage.readShape?
  dsimp only
  rw [hlist, Identifier.stable v d d' hfits]
  generalize (Schema.itemsOf? v.written).bind _ = list
  generalize Identifier.read? d' v.written = one
  cases list with
  | some targets => rfl
  | none =>
    cases one with
    | some target => rfl
    | none => cases v <;> rfl

/-- The value of what is pointed at is looked at first, and is there in both readings. -/
theorem Linkage.stable : Stable Linkage.read? := by
  intro v d d' hfits
  unfold Linkage.read?
  rw [Written.value?_written hfits.depth_le',
    Written.value?_written (Json.Value.depth_ordered_le hfits.depth_le)]
  exact Linkage.readShape?_stable v d d' hfits

theorem nullable_some {β : Type} {read? : Written → Option β} {w : Written} (h : w ≠ .null) :
    nullable read? (some w) = (read? w).map some := by
  cases w with
  | null => exact absurd rfl h
  | _ => rfl

/-- Nothing, `null`, or a value. -/
theorem nullable_stable {β : Type} {read? : Nat → Written → Option β} (h : Stable read?)
    {x : Option Value} {d d' : Nat} (hx : ∀ v, x = some v → Fits v d d') :
    nullable (read? d) (x.map fun v => v.ordered.written) = nullable (read? d') (x.map written) := by
  cases x with
  | none => rfl
  | some v =>
    by_cases hnull : v = .null
    · rw [hnull]
      rfl
    · rw [Option.map_some, Option.map_some, nullable_some (written_ne_null (ordered_ne_null hnull)),
        nullable_some (written_ne_null hnull), h v d d' (hx v rfl)]

theorem Relationship.stable : Stable Relationship.read? := by
  intro v d d' hfits
  unfold Relationship.read?
  rcases slotsWithin?_cases hfits ["data", "links"] with ⟨h, h'⟩ | ⟨found, hlength, hmem, h, h'⟩
  · rw [h, h']
  · obtain ⟨data, links, rfl⟩ := List.length_eq_two.1 hlength
    have hdata := elim_stable Linkage.stable (some .nothing) (x := data)
      (fun v hv => hmem v (by simp [hv]))
    have hlinks := nullable_stable stable_value? (x := links) (fun v hv => hmem v (by simp [hv]))
    rw [h, h']
    simp only [List.map_cons, List.map_nil]
    rw [hdata, hlinks]

/-! ## 3. Relationships by name -/

namespace Relationships

/-- One member, read as a relationship. -/
def readMember? (depth : Nat) (m : Option String × Written) : Option (String × Relationship) :=
  match m.1, Relationship.read? depth m.2 with
  | some key, some r => some (key, r)
  | _, _ => none

theorem readMembers?_eq (depth : Nat) (members : List (Option String × Written)) :
    readMembers? depth members = members.mapM (readMember? depth) := by
  induction members with
  | nil => rw [readMembers?]; rfl
  | cons m members ih =>
    obtain ⟨_ | key, w⟩ := m
    · rw [readMembers?]
      · rfl
      · intro _ _ _ heq
        cases heq
    · rw [readMembers?.eq_def]
      dsimp only
      rw [ih, List.mapM_cons, readMember?]
      dsimp only
      cases Relationship.read? depth w <;> cases members.mapM (readMember? depth) <;> rfl

theorem readMember?_some (depth : Nat) (key : String) (w : Written) :
    readMember? depth (some key, w) = (Relationship.read? depth w).map fun r => (key, r) := by
  rw [readMember?]
  cases Relationship.read? depth w <;> rfl

/-- Members are read with their keys. -/
theorem keys_of_readMembers {depth : Nat} (members : List (String × Written))
    {rs : List (String × Relationship)}
    (h : (members.map fun m => (some m.1, m.2)).mapM (readMember? depth) = some rs) :
    rs.map (·.1) = members.map (·.1) := by
  rw [List.mapM_map] at h
  have hall := mapM_eq_some_iff.1 h
  clear h
  induction hall with
  | nil => rfl
  | cons hm _ ih =>
    rw [Function.comp_apply, readMember?_some] at hm
    obtain ⟨r, -, rfl⟩ := Option.map_eq_some_iff.1 hm
    rw [List.map_cons, List.map_cons, ih]

/-- **Relationships are kept in order, in whatever order they came.** -/
theorem stable : Stable read? := by
  intro v d d' hfits
  cases v with
  | object members =>
    obtain ⟨hpos, hpos', hmember⟩ := hfits.member
    have hnodup := ((Json.Value.keys_object_iff members).1 hfits.distinct).1
    have hkeys : ((members.map fun m => (m.1, ordered m.2)).map (·.1)).Nodup := by
      rwa [List.map_map]
    have hperm : ((Value.orderMembers (members.map fun m => (m.1, ordered m.2))).map
          fun m => (some m.1, written m.2)).Perm
        (members.map fun m => (some m.1, written (ordered m.2))) := by
      have hmap := (Json.Value.perm_orderMembers hkeys).map fun m => (some m.1, written m.2)
      rwa [List.map_map] at hmap
    have hsame : (members.map fun m => (some m.1, written (ordered m.2))).mapM (readMember? (d - 1)) =
        (members.map fun m => (some m.1, written m.2)).mapM (readMember? (d' - 1)) := by
      rw [List.mapM_map, List.mapM_map]
      refine mapM_congr fun m hm => ?_
      rw [Function.comp_apply, Function.comp_apply, readMember?_some, readMember?_some,
        Relationship.stable m.2 _ _ (hmember m hm)]
    rw [Json.Value.ordered_object, Json.Value.written_object, Json.Value.written_object, read?, read?,
      if_neg (by omega), if_neg (by omega), readMembers?_eq, readMembers?_eq, ← hsame]
    have hrel := mapM_perm (f := readMember? (d - 1)) hperm
    have hnames : ∀ rs, (members.map fun m => (some m.1, written (ordered m.2))).mapM
        (readMember? (d - 1)) = some rs → (rs.map (·.1)).Nodup := by
      intro rs hrs
      have hread := keys_of_readMembers (members.map fun m => (m.1, written (ordered m.2)))
        (by rw [List.map_map]; exact hrs)
      rw [hread, List.map_map]
      exact hnodup
    revert hrel hnames
    generalize (List.map _ (Value.orderMembers _)).mapM (readMember? (d - 1)) = found
    generalize (members.map _).mapM (readMember? (d - 1)) = found'
    rintro (hrs | _) hnames
    · exact congrArg some (Keyed.ofList_eq_of_perm (hnames _ rfl) hrs.symm).symm
    · rfl
  | array items => rw [Json.Value.ordered_array, Json.Value.written_array, Json.Value.written_array]; rfl
  | _ => rfl

end Relationships

/-! ## 4. Resources and documents -/

theorem readRelationships?_stable {x : Option Value} {d d' : Nat}
    (hx : ∀ v, x = some v → Fits v d d') :
    Resource.readRelationships? d (x.map fun v => v.ordered.written) =
      Resource.readRelationships? d' (x.map written) :=
  elim_stable Relationships.stable _ hx

section Recorded

variable {α : Type} [Recorded α]

theorem Recorded.stable : Stable (Recorded.read? α) := by
  intro v d d' hfits
  rw [Recorded.read?, Recorded.read?, Schema.FieldType.stable _ v d d' hfits]

/-- **A resource is read alike in any order.** -/
theorem Resource.stable : Stable (Resource.read? (α := α)) := by
  intro v d d' hfits
  unfold Resource.read?
  rcases slotsWithin?_cases hfits ["id", "attributes", "relationships"] with
    ⟨h, h'⟩ | ⟨found, hlength, hmem, h, h'⟩
  · rw [h, h']
  · obtain ⟨id, attributes, relationships, rfl⟩ := List.length_eq_three.1 hlength
    have hrelationships := readRelationships?_stable (x := relationships)
      (fun v hv => hmem v (by simp [hv]))
    rw [h, h']
    match id, attributes, hmem with
    | none, _, _ => rfl
    | some _, none, _ => rfl
    | some id, some attributes, hmem =>
      have hattributes := Recorded.stable (α := α) attributes _ _ (hmem attributes (by simp))
      simp only [List.map_cons, List.map_nil, Option.map_some]
      rw [hrelationships, hattributes, textOf?_ordered]

end Recorded

theorem Included.stable : Stable Included.read? := by
  intro v d d' hfits
  unfold Included.read?
  rcases slotsWithin?_cases hfits ["type", "id", "attributes", "relationships"] with
    ⟨h, h'⟩ | ⟨found, hlength, hmem, h, h'⟩
  · rw [h, h']
  · match found, hlength, hmem with
    | [type, id, attributes, relationships], _, hmem =>
      have hrelationships := readRelationships?_stable (x := relationships)
        (fun v hv => hmem v (by simp [hv]))
      have hattributes := elim_stable stable_value? (some .null) (x := attributes)
        (fun v hv => hmem v (by simp [hv]))
      rw [h, h']
      match type, id with
      | none, _ => rfl
      | some _, none => rfl
      | some type, some id =>
        simp only [List.map_cons, List.map_nil, Option.map_some]
        rw [hrelationships, hattributes, textOf?_ordered, textOf?_ordered]

/-- **A document is read alike in any order.** -/
theorem Document.stable {α : Type} [Recorded α] : Stable (Document.read? (α := α)) := by
  intro v d d' hfits
  unfold Document.read?
  rcases slotsWithin?_cases hfits ["data", "included"] with ⟨h, h'⟩ | ⟨found, hlength, hmem, h, h'⟩
  · rw [h, h']
  · obtain ⟨data, included, rfl⟩ := List.length_eq_two.1 hlength
    have hincluded : readIncluded? (d - 1) (included.map fun v => v.ordered.written) =
        readIncluded? (d' - 1) (included.map written) := by
      cases included with
      | none => rfl
      | some v => exact stable_items Included.stable v _ _ (hmem v (by simp))
    rw [h, h']
    match data, hmem with
    | none, _ => rfl
    | some data, hmem =>
      have hdata := Resource.stable (α := α) data _ _ (hmem data (by simp))
      simp only [List.map_cons, List.map_nil, Option.map_some]
      rw [hdata, hincluded]

end TerraformCloud
