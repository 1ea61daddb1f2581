/-
  TerraformCloud/Proofs/JsonApi/Grown.lean
  ========================================
  **A service may say more than it used to.**

  A document grows when one of its objects gets a member under a name that nobody looks
  for there: the document itself, its resource, anything inside of the attributes, a
  relationship, or an identifier that a relationship points at.  The resource is then read
  as before (`Document.preserves`).  A relationship under a name of its own is read in
  addition, and whatever was said under other names stays (`Document.gains`).

  Two places look at what they do not know.  A word that is spelled as an object has
  nothing but its one key, so it is no object that may grow.  And what a relationship
  points at is tried in three shapes, so it is read as a value first: what joins an
  identifier has to be a value.
-/
import TerraformCloud.Proofs.JsonApi.RoundTrip
import TerraformCloud.Proofs.Schema.Grown

namespace TerraformCloud

open Json (Value Written)
open Schema (Joined Inside InItem Passed passed_cons slots?_of_joined slots?_of_inside slots?_of_missing)

/-! ## 1. Documents that grow -/

/-- An identifier gets one more member, a value that the document has room for. -/
inductive Identifier.Grows (depth : Nat) : Written → Written → Prop where
  | mk {before after : List (Option String × Written)} {name : String} {w : Written} {v : Value}
      (unknown : name ∉ ["type", "id"]) (value : w.value? (depth - 1) = some v) :
      Identifier.Grows depth (.object (before ++ after)) (.object (before ++ (some name, w) :: after))

/-- One identifier grows: the only one, or one of a list. -/
def Linkage.Grows (depth : Nat) (w w' : Written) : Prop :=
  Identifier.Grows depth w w' ∨ InItem (Identifier.Grows (depth - 1)) w w'

def Relationship.Grows (depth : Nat) (w w' : Written) : Prop :=
  Joined ["data", "links"] w w' ∨ Inside ["data", "links"] "data" (Linkage.Grows (depth - 1)) w w'

/-- One of the relationships grows. -/
inductive Relationships.Grows (depth : Nat) : Written → Written → Prop where
  | mk {before after : List (Option String × Written)} {key : Option String} {w w' : Written}
      (inside : Relationship.Grows (depth - 1) w w') :
      Relationships.Grows depth (.object (before ++ (key, w) :: after)) (.object (before ++ (key, w') :: after))

/-- The members of a resource that are looked at. -/
def Resource.names : List String := ["id", "attributes", "relationships"]

/-- A resource with attributes of these fields grows. -/
def Resource.Grows (fields : Schema.Fields) (depth : Nat) (w w' : Written) : Prop :=
  Joined names w w' ∨ Inside names "attributes" (Schema.FieldType.record fields).Grows w w' ∨
    Inside names "relationships" (Relationships.Grows (depth - 1)) w w'

/-- A document with one resource, whose attributes have these fields, grows. -/
def Document.Grows (fields : Schema.Fields) (depth : Nat) (w w' : Written) : Prop :=
  Joined ["data", "included"] w w' ∨ Inside ["data", "included"] "data" (Resource.Grows fields (depth - 1)) w w'

/-! ## 2. Values that stay values -/

namespace Json.Written

theorem exists_value?_array_iff {items : List Written} {depth : Nat} :
    (∃ v, value? depth (.array items) = some v) ↔ depth ≠ 0 ∧ ∀ w ∈ items, ∃ v, value? (depth - 1) w = some v := by
  rw [value?, values?_eq, ← exists_mapM_iff]
  by_cases hdepth : depth = 0
  · simp [hdepth]
  · simp [hdepth]

theorem exists_value?_object_iff {members : List (Option String × Written)} {depth : Nat} :
    (∃ v, value? depth (.object members) = some v) ↔
      depth ≠ 0 ∧ ∀ m ∈ members, m.1 ≠ none ∧ ∃ v, value? (depth - 1) m.2 = some v := by
  have hmember : ∀ m : Option String × Written, (∃ x, memberValue? (depth - 1) m = some x) ↔
      m.1 ≠ none ∧ ∃ v, value? (depth - 1) m.2 = some v := by
    rintro ⟨key, w⟩
    rw [memberValue?]
    cases key <;> cases value? (depth - 1) w <;> simp
  simp only [← hmember, ← exists_mapM_iff]
  rw [value?, memberValues?_eq]
  by_cases hdepth : depth = 0
  · simp [hdepth]
  · simp [hdepth]

end Json.Written

theorem Identifier.Grows.value {depth : Nat} {w w' : Written} (h : Identifier.Grows depth w w')
    (hvalue : ∃ v, w.value? depth = some v) : ∃ v, w'.value? depth = some v := by
  obtain @⟨before, after, name, x, v, unknown, value⟩ := h
  rw [Json.Written.exists_value?_object_iff] at hvalue ⊢
  simp only [List.forall_mem_append, List.forall_mem_cons] at hvalue ⊢
  exact ⟨hvalue.1, hvalue.2.1, ⟨nofun, v, value⟩, hvalue.2.2⟩

theorem Linkage.Grows.value {depth : Nat} {w w' : Written} (h : Linkage.Grows depth w w')
    (hvalue : ∃ v, w.value? depth = some v) : ∃ v, w'.value? depth = some v := by
  rcases h with hone | hitem
  · exact hone.value hvalue
  · obtain @⟨before, after, x, x', inside⟩ := hitem
    rw [Json.Written.exists_value?_array_iff] at hvalue ⊢
    simp only [List.forall_mem_append, List.forall_mem_cons] at hvalue ⊢
    exact ⟨hvalue.1, hvalue.2.1, inside.value hvalue.2.2.1, hvalue.2.2.2⟩

/-! ## 3. Relationships -/

section Slots

variable {names : List String} {name : String} {R : Written → Written → Prop} {depth : Nat} {w w' : Written}

theorem slotsWithin?_of_joined (h : Joined names w w') :
    slotsWithin? names depth w' = slotsWithin? names depth w := by
  rw [slotsWithin?, slotsWithin?, slots?_of_joined h]

theorem slotsWithin?_of_inside (h : Inside names name R w w') {found : List (Option Written)}
    (hfound : slotsWithin? names depth w = some found) :
    ∃ found', slotsWithin? names depth w' = some found' ∧ found'.length = names.length ∧
      Passed names name R found found' := by
  rw [slotsWithin?] at hfound ⊢
  split at hfound
  · cases hfound
  next hdepth =>
  rw [if_neg hdepth]
  obtain ⟨found', hfound', hpassed⟩ := slots?_of_inside h hfound
  exact ⟨found', hfound', length_slots? hfound', hpassed⟩

end Slots

theorem Identifier.Grows.joined {depth : Nat} {w w' : Written} (h : Identifier.Grows depth w w') :
    Joined ["type", "id"] w w' := by
  obtain ⟨unknown, -⟩ := h
  exact .mk unknown

theorem Identifier.read?_of_grows {depth : Nat} {w w' : Written} (h : Identifier.Grows depth w w') (d : Nat) :
    Identifier.read? d w' = Identifier.read? d w := by
  rw [Identifier.read?, Identifier.read?, slotsWithin?_of_joined h.joined]

/-- An array that is one identifier has no objects in it. -/
theorem Identifier.not_object_mem {depth : Nat} {items : List Written} {i : Identifier}
    (h : Identifier.read? depth (.array items) = some i) (members : List (Option String × Written)) :
    .object members ∉ items := by
  rw [Identifier.read?] at h
  split at h
  · next type id hslots =>
    obtain ⟨hfits, hfound⟩ := Schema.slots?_array_eq_some_iff.1 (slots?_of_slotsWithin? hslots)
    rcases items with _ | ⟨a, _ | ⟨b, _ | ⟨c, more⟩⟩⟩
    · cases hfound
    · cases hfound
    · cases hfound
      intro hmem
      simp only [List.mem_cons, List.not_mem_nil, or_false] at hmem
      rcases hmem with rfl | rfl
      · cases h
      · cases htype : Schema.textOf? _ <;> rw [htype] at h <;> cases h
    · simp at hfits
  · cases h

/-- **What a relationship points at is the same after an identifier has grown.** -/
theorem Linkage.preserves {depth : Nat} {w w' : Written} (h : Linkage.Grows depth w w') :
    Preserves (Linkage.read? depth) w w' := by
  intro linkage hread
  rw [Linkage.read?] at hread ⊢
  cases hvalue : w.value? depth with
  | none =>
    rw [hvalue] at hread
    cases hread
  | some v =>
    rw [hvalue] at hread
    obtain ⟨v', hvalue'⟩ := h.value ⟨v, hvalue⟩
    rw [hvalue']
    dsimp only at hread ⊢
    unfold readShape? at hread ⊢
    rcases h with hone | hitem
    · obtain @⟨before, after, name, x, v, unknown, value⟩ := hone
      have hsame : Identifier.read? depth (.object (before ++ (some name, x) :: after)) =
          Identifier.read? depth (.object (before ++ after)) :=
        Identifier.read?_of_grows (.mk unknown value) depth
      dsimp only [Schema.itemsOf?, Option.bind_none] at hread ⊢
      rw [hsame]
      cases hone : Identifier.read? depth (.object (before ++ after)) with
      | none =>
        rw [hone] at hread
        cases hread
      | some target =>
        rw [hone] at hread
        exact hread
    · obtain @⟨before, after, x, x', inside⟩ := hitem
      have hitems : (before ++ x' :: after).mapM (Identifier.read? (depth - 1)) =
          (before ++ x :: after).mapM (Identifier.read? (depth - 1)) := by
        rw [List.mapM_append, List.mapM_append, List.mapM_cons, List.mapM_cons,
          Identifier.read?_of_grows inside]
      -- the item that grows is an object, so the array is not read as one identifier
      have hnone : Identifier.read? depth (.array (before ++ x :: after)) = none := by
        cases hi : Identifier.read? depth (.array (before ++ x :: after)) with
        | none => rfl
        | some i =>
          obtain ⟨_, _⟩ := inside
          exact absurd (List.mem_append_right _ List.mem_cons_self) (Identifier.not_object_mem hi _)
      dsimp only [Schema.itemsOf?, Option.bind_some] at hread ⊢
      rw [hnone] at hread
      rw [hitems]
      cases htargets : (before ++ x :: after).mapM (Identifier.read? (depth - 1)) with
      | none =>
        rw [htargets] at hread
        cases hread
      | some targets =>
        rw [htargets] at hread
        exact hread

/-- What was found is read as before where it is the same, or has changed in a way that
    does not matter. -/
theorem elim_of_passed {β : Type} {read? : Written → Option β} {missing : Option β} {x x' : Option Written}
    {r : β} (h : x' = x ∨ ∃ w w', x = some w ∧ x' = some w' ∧ Preserves read? w w')
    (hr : x.elim missing read? = some r) : x'.elim missing read? = some r := by
  rcases h with rfl | ⟨w, w', rfl, rfl, hpreserves⟩
  · exact hr
  · exact hpreserves r hr

theorem Relationship.read?_eq_some_iff {depth : Nat} {w : Written} {r : Relationship} :
    Relationship.read? depth w = some r ↔ ∃ data links,
      slotsWithin? ["data", "links"] depth w = some [data, links] ∧
      data.elim (some Linkage.nothing) (Linkage.read? (depth - 1)) = some r.data ∧
      nullable (Written.value? (depth - 1)) links = some r.links := by
  rw [Relationship.read?]
  constructor
  · intro h
    split at h
    · next data links hslots =>
      split at h
      · next hd hl =>
        cases h
        exact ⟨data, links, hslots, hd, hl⟩
      · cases h
    · cases h
  · rintro ⟨data, links, hslots, hd, hl⟩
    rw [hslots]
    dsimp only
    rw [hd, hl]

theorem Relationship.preserves {depth : Nat} {w w' : Written} (h : Relationship.Grows depth w w') :
    Preserves (Relationship.read? depth) w w' := by
  intro r hread
  rw [read?_eq_some_iff] at hread ⊢
  rcases h with hjoined | hinside
  · rwa [slotsWithin?_of_joined hjoined]
  obtain ⟨data, links, hslots, hd, hl⟩ := hread
  obtain ⟨found', hslots', hlength, hpassed⟩ := slotsWithin?_of_inside hinside hslots
  obtain ⟨data', links', rfl⟩ := List.length_eq_two.1 hlength
  obtain ⟨hdata, hrest⟩ := passed_cons hpassed
  have hlinks : links' = links := (passed_cons hrest).1.resolve_right fun h => absurd h.1 (by decide)
  refine ⟨data', links', hslots', elim_of_passed (hdata.imp_right ?_) hd, hlinks ▸ hl⟩
  rintro ⟨-, x, x', hx, hx', hgrows⟩
  exact ⟨x, x', hx, hx', Linkage.preserves hgrows⟩

theorem Relationships.preserves {depth : Nat} {w w' : Written} (h : Relationships.Grows depth w w') :
    Preserves (Relationships.read? depth) w w' := by
  obtain @⟨before, after, key, x, x', inside⟩ := h
  intro rs hread
  rw [Relationships.read?] at hread ⊢
  split at hread
  · cases hread
  next hdepth =>
  rw [if_neg hdepth]
  rw [readMembers?_eq] at hread ⊢
  obtain ⟨l, hl, rfl⟩ := Option.map_eq_some_iff.1 hread
  have hmember : Preserves (readMember? (depth - 1)) (key, x) (key, x') := by
    intro m hm
    rw [readMember?] at hm ⊢
    split at hm
    · next hkey hr =>
      dsimp only at hkey hr ⊢
      rw [hkey, Relationship.preserves inside _ hr]
      exact hm
    · cases hm
  rw [hmember.item before after l hl]
  rfl

/-! ## 4. Resources and documents -/

section Recorded

variable {α : Type} [Recorded α]

theorem Resource.read?_eq_some_iff {depth : Nat} {w : Written} {r : Resource α} :
    Resource.read? depth w = some r ↔ ∃ id attributes relationships,
      slotsWithin? names depth w = some [some id, some attributes, relationships] ∧
      Schema.textOf? id = some r.id ∧ Recorded.read? α (depth - 1) attributes = some r.attributes ∧
      readRelationships? (depth - 1) relationships = some r.relationships := by
  rw [Resource.read?, ← names]
  constructor
  · intro h
    split at h
    · next id attributes relationships hslots =>
      split at h
      · next hid hattributes hrelationships =>
        cases h
        exact ⟨id, attributes, relationships, hslots, hid, hattributes, hrelationships⟩
      · cases h
    · cases h
  · rintro ⟨id, attributes, relationships, hslots, hid, hattributes, hrelationships⟩
    rw [hslots]
    dsimp only
    rw [hid, hattributes, hrelationships]

theorem Document.read?_eq_some_iff {depth : Nat} {w : Written} {d : Document α} :
    Document.read? depth w = some d ↔ ∃ data included,
      slotsWithin? ["data", "included"] depth w = some [some data, included] ∧
      Resource.read? (depth - 1) data = some d.data ∧ readIncluded? (depth - 1) included = some d.included := by
  rw [Document.read?]
  constructor
  · intro h
    split at h
    · next data included hslots =>
      split at h
      · next hdata hincluded =>
        cases h
        exact ⟨data, included, hslots, hdata, hincluded⟩
      · cases h
    · cases h
  · rintro ⟨data, included, hslots, hdata, hincluded⟩
    rw [hslots]
    dsimp only
    rw [hdata, hincluded]

theorem Recorded.preserves {depth : Nat} {w w' : Written}
    (h : (Schema.FieldType.record (fields α)).Grows w w') : Preserves (Recorded.read? α depth) w w' := by
  intro a hread
  obtain ⟨r, hr, rfl⟩ := Option.map_eq_some_iff.1 hread
  exact Option.map_eq_some_iff.2 ⟨r, Schema.FieldType.preserves _ h depth r hr, rfl⟩

/-- What is found in a resource when one of its members changes. -/
theorem Resource.slots_of_inside {name : String} {R : Written → Written → Prop} {depth : Nat} {w w' : Written}
    {id attributes relationships : Option Written} (h : Inside names name R w w')
    (hslots : slotsWithin? names depth w = some [id, attributes, relationships]) :
    ∃ id' attributes' relationships', slotsWithin? names depth w' = some [id', attributes', relationships'] ∧
      (id' = id ∨ "id" = name ∧ ∃ x x', id = some x ∧ id' = some x' ∧ R x x') ∧
      (attributes' = attributes ∨ "attributes" = name ∧
        ∃ x x', attributes = some x ∧ attributes' = some x' ∧ R x x') ∧
      (relationships' = relationships ∨ "relationships" = name ∧
        ∃ x x', relationships = some x ∧ relationships' = some x' ∧ R x x') := by
  obtain ⟨found', hslots', hlength, hpassed⟩ := slotsWithin?_of_inside h hslots
  obtain ⟨id', attributes', relationships', rfl⟩ := List.length_eq_three.1 hlength
  obtain ⟨hid, hpassed⟩ := passed_cons hpassed
  obtain ⟨hattributes, hpassed⟩ := passed_cons hpassed
  exact ⟨id', attributes', relationships', hslots', hid, hattributes, (passed_cons hpassed).1⟩

/-- **A resource is read as before after it has grown.** -/
theorem Resource.preserves {depth : Nat} {w w' : Written} (h : Resource.Grows (Recorded.fields α) depth w w') :
    Preserves (Resource.read? (α := α) depth) w w' := by
  intro r hread
  rw [read?_eq_some_iff] at hread ⊢
  rcases h with hjoined | hinside | hinside
  · rwa [slotsWithin?_of_joined hjoined]
  · obtain ⟨id, attributes, relationships, hslots, hid, hattributes, hrelationships⟩ := hread
    obtain ⟨id', attributes', relationships', hslots', hsame, hchanged, hsame'⟩ :=
      slots_of_inside hinside hslots
    obtain rfl := hsame.resolve_right fun h => absurd h.1 (by decide)
    obtain rfl := hsame'.resolve_right fun h => absurd h.1 (by decide)
    rcases hchanged with rfl | ⟨-, x, x', hx, rfl, hgrows⟩
    · exact ⟨id, attributes, _, hslots', hid, hattributes, hrelationships⟩
    · cases hx
      exact ⟨id, x', _, hslots', hid, Recorded.preserves hgrows _ hattributes, hrelationships⟩
  · obtain ⟨id, attributes, relationships, hslots, hid, hattributes, hrelationships⟩ := hread
    obtain ⟨id', attributes', relationships', hslots', hsame, hsame', hchanged⟩ :=
      slots_of_inside hinside hslots
    obtain rfl := hsame.resolve_right fun h => absurd h.1 (by decide)
    obtain rfl := hsame'.resolve_right fun h => absurd h.1 (by decide)
    refine ⟨id, attributes, relationships', hslots', hid, hattributes,
      elim_of_passed (hchanged.imp_right ?_) hrelationships⟩
    rintro ⟨-, x, x', hx, hx', hgrows⟩
    exact ⟨x, x', hx, hx', Relationships.preserves hgrows⟩

/-- What is found in a document when its resource changes. -/
theorem Document.slots_of_inside {R : Written → Written → Prop} {depth : Nat} {w w' data : Written}
    {included : Option Written} (h : Inside ["data", "included"] "data" R w w')
    (hslots : slotsWithin? ["data", "included"] depth w = some [some data, included]) :
    ∃ data', slotsWithin? ["data", "included"] depth w' = some [some data', included] ∧
      (data' = data ∨ R data data') := by
  obtain ⟨found', hslots', hlength, hpassed⟩ := slotsWithin?_of_inside h hslots
  obtain ⟨data', included', rfl⟩ := List.length_eq_two.1 hlength
  obtain ⟨hdata, hpassed⟩ := passed_cons hpassed
  obtain rfl := (passed_cons hpassed).1.resolve_right fun h => absurd h.1 (by decide)
  rcases hdata with rfl | ⟨-, x, x', hx, rfl, hchanged⟩
  · exact ⟨data, hslots', .inl rfl⟩
  · cases hx
    exact ⟨x', hslots', .inr hchanged⟩

/-- **A document is read as before after it has grown.** -/
theorem Document.preserves {depth : Nat} {w w' : Written} (h : Document.Grows (Recorded.fields α) depth w w') :
    Preserves (Document.read? (α := α) depth) w w' := by
  intro d hread
  rw [read?_eq_some_iff] at hread ⊢
  rcases h with hjoined | hinside
  · rwa [slotsWithin?_of_joined hjoined]
  · obtain ⟨data, included, hslots, hdata, hincluded⟩ := hread
    obtain ⟨data', hslots', rfl | hgrows⟩ := slots_of_inside hinside hslots
    · exact ⟨data', included, hslots', hdata, hincluded⟩
    · exact ⟨data', included, hslots', Resource.preserves hgrows _ hdata, hincluded⟩

end Recorded

/-! ## 5. One more relationship -/

/-- Relationships get one more, under a name that none of them has. -/
inductive Relationships.Gains (key : String) (added : Written) : Written → Written → Prop where
  | mk {before after : List (Option String × Written)} (unused : ∀ m ∈ before ++ after, m.1 ≠ some key) :
      Relationships.Gains key added (.object (before ++ after)) (.object (before ++ (some key, added) :: after))

/-- A resource gets one more relationship, or its first one. -/
inductive Resource.Gains (key : String) (added : Written) : Written → Written → Prop where
  | more {w w' : Written} (inside : Inside names "relationships" (Relationships.Gains key added) w w') :
      Resource.Gains key added w w'
  | first {before after : List (Option String × Written)}
      (missing : ∀ m ∈ before ++ after, m.1 ≠ some "relationships") :
      Resource.Gains key added (.object (before ++ after))
        (.object (before ++ (some "relationships", .object [(some key, added)]) :: after))
  | place {id attributes : Written} :
      Resource.Gains key added (.array [id, attributes])
        (.array [id, attributes, .object [(some key, added)]])

/-- The resource of a document gets one more relationship. -/
def Document.Gains (key : String) (added : Written) : Written → Written → Prop :=
  Inside ["data", "included"] "data" (Resource.Gains key added)

section Gains

variable {key : String} {added : Written} {rel : Relationship} {depth : Nat} {w w' : Written}

theorem Relationship.depth_ne_zero (h : Relationship.read? depth added = some rel) : depth ≠ 0 := by
  rintro rfl
  obtain ⟨data, links, hslots, -⟩ := read?_eq_some_iff.1 h
  cases hslots

theorem Relationships.gains (hadded : Relationship.read? (depth - 1) added = some rel)
    (h : Relationships.Gains key added w w') {rs : Relationships}
    (hread : Relationships.read? depth w = some rs) :
    Relationships.read? depth w' = some (rs.insert key rel) := by
  obtain @⟨before, after, unused⟩ := h
  rw [Relationships.read?] at hread ⊢
  split at hread
  · cases hread
  next hdepth =>
  rw [if_neg hdepth]
  obtain ⟨l, hl, rfl⟩ := Option.map_eq_some_iff.1 hread
  rw [readMembers?_eq, List.mapM_append] at hl ⊢
  obtain ⟨first, hfirst, hl⟩ := Option.bind_eq_some_iff.1 hl
  obtain ⟨last, hlast, hl⟩ := Option.bind_eq_some_iff.1 hl
  cases hl
  have hnew : readMember? (depth - 1) (some key, added) = some (key, rel) := by
    rw [readMember?_some, hadded]
    rfl
  rw [List.mapM_cons, hfirst, hlast, hnew]
  -- no member behind the new one has its name
  have hother : ∀ e ∈ last, e.1 ≠ key := by
    rintro e he rfl
    obtain ⟨m, hm, hread⟩ := exists_mem_of_mapM hlast he
    refine unused m (List.mem_append_right _ hm) ?_
    rw [readMember?] at hread
    split at hread
    · next hkey _ =>
      cases hread
      exact hkey
    · cases hread
  refine congrArg some ?_
  rw [Keyed.ofList, Keyed.ofList, List.foldl_append, List.foldl_append, List.foldl_cons,
    Keyed.foldl_insert_of_forall_ne hother]

/-- The first relationship of a resource. -/
theorem Relationships.read?_single (hadded : Relationship.read? (depth - 1) added = some rel) :
    Relationships.read? depth (.object [(some key, added)]) = some (Keyed.empty.insert key rel) := by
  have hdepth : depth ≠ 0 := by
    have := Relationship.depth_ne_zero hadded
    omega
  have hnone : Relationships.read? depth (.object []) = some .empty := by
    rw [Relationships.read?, if_neg hdepth]
    rfl
  have hgains : Relationships.Gains key added (.object ([] ++ [])) (.object ([] ++ (some key, added) :: [])) :=
    .mk fun m hm => absurd hm List.not_mem_nil
  exact Relationships.gains hadded hgains hnone

variable {α : Type} [Recorded α]

/-- **One more relationship is read in addition.** -/
theorem Resource.gains (hadded : Relationship.read? (depth - 2) added = some rel)
    (h : Resource.Gains key added w w') {r : Resource α} (hread : Resource.read? depth w = some r) :
    Resource.read? depth w' = some { r with relationships := r.relationships.insert key rel } := by
  have hsingle : Relationships.read? (depth - 1) (.object [(some key, added)]) =
      some (Keyed.empty.insert key rel) := Relationships.read?_single hadded
  have hdepth : depth ≠ 0 := by
    have := Relationship.depth_ne_zero hadded
    omega
  obtain ⟨_, _, rs⟩ := r
  rw [read?_eq_some_iff] at hread ⊢
  obtain ⟨id, attributes, relationships, hslots, hid, hattributes, hrelationships⟩ := hread
  cases h with
  | more inside =>
    obtain ⟨id', attributes', relationships', hslots', hsame, hsame', -⟩ := slots_of_inside inside hslots
    obtain rfl := hsame.resolve_right fun h => absurd h.1 (by decide)
    obtain rfl := hsame'.resolve_right fun h => absurd h.1 (by decide)
    obtain ⟨x, x', hx, hx', hgains⟩ := Schema.changed_of_inside (by decide) inside
      (slots?_of_slotsWithin? hslots) (slots?_of_slotsWithin? hslots') (i := 2) rfl
    cases hx
    cases hx'
    exact ⟨id, attributes, some x', hslots', hid, hattributes,
      Relationships.gains hadded hgains hrelationships⟩
  | @first before after missing =>
    have hfound := slots?_of_slotsWithin? hslots
    have hnone : relationships = none := by
      obtain ⟨-, -, heq⟩ := Schema.slots?_object_eq_some_iff.1 hfound
      have hmissing : (before ++ after).find? (fun m => m.1 = some "relationships") = none :=
        List.find?_eq_none.2 fun m hm => by simpa using missing m hm
      have hthird : some relationships =
          some (((before ++ after).find? fun m => m.1 = some "relationships").map (·.2)) :=
        congrArg (·[2]?) heq
      rw [hmissing] at hthird
      exact Option.some.inj hthird
    have hslots' := slots?_of_missing (w := .object [(some key, added)]) missing hfound
    subst hnone
    cases hrelationships
    refine ⟨id, attributes, some (.object [(some key, added)]), ?_, hid, hattributes, hsingle⟩
    rw [slotsWithin?, if_neg hdepth, hslots']
    rfl
  | place =>
    cases slots?_of_slotsWithin? hslots
    cases hrelationships
    refine ⟨_, _, some (.object [(some key, added)]), ?_, hid, hattributes, hsingle⟩
    rw [slotsWithin?, if_neg hdepth]
    rfl

theorem Document.gains (hadded : Relationship.read? (depth - 3) added = some rel)
    (h : Document.Gains key added w w') {d : Document α} (hread : Document.read? depth w = some d) :
    Document.read? depth w' =
      some { d with data := { d.data with relationships := d.data.relationships.insert key rel } } := by
  rw [read?_eq_some_iff] at hread ⊢
  obtain ⟨data, included, hslots, hdata, hincluded⟩ := hread
  obtain ⟨found', hslots', hlength, hpassed⟩ := slotsWithin?_of_inside h hslots
  obtain ⟨data', included', rfl⟩ := List.length_eq_two.1 hlength
  obtain ⟨-, hpassed⟩ := passed_cons hpassed
  obtain rfl := (passed_cons hpassed).1.resolve_right fun h => absurd h.1 (by decide)
  obtain ⟨x, x', hx, hx', hgains⟩ := Schema.changed_of_inside (by decide) h
    (slots?_of_slotsWithin? hslots) (slots?_of_slotsWithin? hslots') (i := 0) rfl
  cases hx
  cases hx'
  exact ⟨x', included', hslots', Resource.gains hadded hgains hdata, hincluded⟩

end Gains

/-! ## 6. Decoding -/

theorem decodeOne_of_read? {α : Type} [Recorded α] {bytes : Bytes} {w : Written} {d : Document α}
    (hbytes : Json.parse? bytes = some w) (hread : Document.read? Written.depthLimit w = some d) :
    decodeOne α bytes = .ok d.data := by
  rw [decodeOne, decodeDocument, ofBytes, hbytes, Option.bind_some, hread]
  rfl

/-- **What is decoded of a document is decoded of it after it has grown.**  A member joins
    one of its objects under a name that is not known there: the resource is the same.  A
    relationship joins the others under a name of its own: it is found there, and neither
    the id, the attributes nor what the others point at change. -/
theorem decodeOne_grown (kind : Kind) {bytes bytes' : Bytes} {w w' : Written} {r : Resource kind.Attributes}
    (hbytes : Json.parse? bytes = some w) (hbytes' : Json.parse? bytes' = some w')
    (hread : decodeOne kind.Attributes bytes = .ok r) :
    (Document.Grows (Recorded.fields kind.Attributes) Written.depthLimit w w' →
      decodeOne kind.Attributes bytes' = .ok r) ∧
    ∀ (key : String) (added : Written) (rel : Relationship), Document.Gains key added w w' →
      Relationship.read? 124 added = some rel →
        ∃ r' : Resource kind.Attributes, decodeOne kind.Attributes bytes' = .ok r' ∧ r'.id = r.id ∧
          r'.attributes = r.attributes ∧ r'.relationships.find? key = some rel ∧
          ∀ name, name ≠ key →
            r'.relatedId? name = r.relatedId? name ∧ r'.relatedIds name = r.relatedIds name := by
  obtain ⟨w₀, d, hw, hd, rfl⟩ := decodeOne_eq_ok hread
  obtain rfl : w₀ = w := Option.some.inj (hw.symm.trans hbytes)
  constructor
  · intro hgrows
    exact decodeOne_of_read? hbytes' (Document.preserves hgrows d hd)
  · intro key added rel hgains hadded
    refine ⟨_, decodeOne_of_read? hbytes' (Document.gains hadded hgains hd), rfl, rfl, ?_, ?_⟩
    · rw [Keyed.find?_insert, if_pos rfl]
    · intro name hname
      have hfind : (d.data.relationships.insert key rel).find? name = d.data.relationships.find? name := by
        rw [Keyed.find?_insert, if_neg hname]
      exact ⟨congrArg (Option.bind · Relationship.id?) hfind,
        congrArg (fun found => (found.map Relationship.ids).getD []) hfind⟩

/-- A run with what may be done to it, and with relationships. -/
def growingRun (actions : List (String × Value)) (relationships : List (String × Relationship)) : Value :=
  .object
    [("id", .string "run-1"),
     ("attributes", .object [("status", .string "pending"), ("actions", .object actions)]),
     ("relationships", .object (relationships.map fun m => (m.1, m.2.write)))]

def growingRunRead : Resource Run :=
  ⟨"run-1",
    ⟨.pending, none, none, none, false, false, false, false, ⟨true, false, false, false⟩, none⟩,
    .ofList [("workspace", .toOne "workspaces" "ws-1")]⟩

/-- The attributes of a run grow where the record of what may be done to it does. -/
theorem grows_of_actions {w w' : Written} (h : Joined (Recorded.fields RunActions).names w w') :
    (Schema.FieldType.record (Recorded.fields Run)).Grows
      (.object [(some "status", .string (some "pending")), (some "actions", w)])
      (.object [(some "status", .string (some "pending")), (some "actions", w')]) := by
  refine .inr ⟨"actions", @Inside.member _ _ _ [(some "status", .string (some "pending"))] [] w w' ?_⟩
  have hactions : (Schema.FieldType.record (Recorded.fields RunActions)).Grows w w' := .inl h
  simpa [Schema.Fields.Grows, Recorded.fields, Schema.Fields.ofList] using hactions

theorem decodeOne_grown_run :
    let bytes (v : Value) : Bytes := Utf8.encode (Json.Value.compact (.object [("data", v)]))
    let workspace : String × Relationship := ("workspace", .toOne "workspaces" "ws-1")
    let plan : String × Relationship := ("plan", .toOne "plans" "plan-1")
    let before := growingRun [("is-cancelable", .bool true)] [workspace]
    let grown := growingRun [("is-pausable", .null), ("is-cancelable", .bool true)] [workspace]
    let gained := growingRun [("is-cancelable", .bool true)] [workspace, plan]
    decodeOne Run (bytes before) = .ok growingRunRead ∧ decodeOne Run (bytes grown) = .ok growingRunRead ∧
      ∃ r : Resource Run, decodeOne Run (bytes gained) = .ok r ∧ r.attributes = growingRunRead.attributes ∧
        r.relationships.find? "plan" = some plan.2 ∧ r.relatedId? "workspace" = some "ws-1" := by
  intro bytes workspace plan before grown gained
  have hbefore : Json.parse? (bytes before) = some (primaryDocument before) :=
    Json.parse?_compact _ fun n hn => absurd hn List.not_mem_nil
  have hgrown : Json.parse? (bytes grown) = some (primaryDocument grown) :=
    Json.parse?_compact _ fun n hn => absurd hn List.not_mem_nil
  have hgained : Json.parse? (bytes gained) = some (primaryDocument gained) :=
    Json.parse?_compact _ fun n hn => absurd hn List.not_mem_nil
  have hread : decodeOne Run (bytes before) = .ok growingRunRead := (decodeOne_eq_ok_iff hbefore _).2 rfl
  have hgrows : Document.Grows (Recorded.fields Run) Written.depthLimit (primaryDocument before)
      (primaryDocument grown) := by
    have hactions := grows_of_actions
      (@Joined.mk _ [] [(some "is-cancelable", .bool true)] "is-pausable" .null (by decide))
    exact .inr (@Inside.member _ _ _ [] [] before.written grown.written (.inr (.inl
      (@Inside.member _ _ _ [(some "id", .string (some "run-1"))] [_] _ _ hactions))))
  have hgains : Document.Gains "plan" plan.2.write.written (primaryDocument before) (primaryDocument gained) := by
    have hplan := @Relationships.Gains.mk "plan" plan.2.write.written
      [(some "workspace", workspace.2.write.written)] [] fun m hm => by
        rw [List.append_nil, List.mem_singleton] at hm
        rw [hm]
        decide
    exact @Inside.member _ _ _ [] [] before.written gained.written
      (.more (@Inside.member _ _ _ [(some "id", .string (some "run-1")), _] [] _ _ hplan))
  obtain ⟨hsame, -⟩ := decodeOne_grown .run hbefore hgrown hread
  obtain ⟨-, hmore⟩ := decodeOne_grown .run hbefore hgained hread
  obtain ⟨r, hr, -, hattributes, hplan, hothers⟩ :=
    hmore "plan" _ plan.2 hgains (plan.2.read?_write (by decide) nofun)
  exact ⟨hread, hsame hgrows, r, hr, hattributes, hplan, (hothers "workspace" (by decide)).1⟩

/-- A provider whose registry is spelled as an object. -/
def spelledProvider (registry : List (String × Value)) : Value :=
  .object
    [("id", .string "prov-1"),
     ("attributes", .object
       [("name", .string "aws"), ("namespace", .string "hashicorp"), ("registry-name", .object registry)])]

/-- **A word spelled as an object is no object that may grow**: with one more member it
    spells nothing. -/
theorem decodeOne_spelled_word :
    let bytes (v : Value) : Bytes := Utf8.encode (Json.Value.compact (.object [("data", v)]))
    decodeOne RegistryProvider (bytes (spelledProvider [("private", .null)])) =
      .ok ⟨"prov-1", ⟨"aws", "hashicorp", .private_, none, none⟩, .empty⟩ ∧
    decodeOne RegistryProvider (bytes (spelledProvider [("private", .null), ("since", .string "2024")])) =
      .error .malformed := by
  intro bytes
  have hspelled : Json.parse? (bytes (spelledProvider [("private", .null)])) =
      some (primaryDocument (spelledProvider [("private", .null)])) :=
    Json.parse?_compact _ fun n hn => absurd hn List.not_mem_nil
  have hmore : Json.parse? (bytes (spelledProvider [("private", .null), ("since", .string "2024")])) =
      some (primaryDocument (spelledProvider [("private", .null), ("since", .string "2024")])) :=
    Json.parse?_compact _ fun n hn => absurd hn List.not_mem_nil
  refine ⟨(decodeOne_eq_ok_iff hspelled _).2 rfl, ?_⟩
  rw [decodeOne, decodeDocument, ofBytes, hmore]
  rfl

end TerraformCloud
