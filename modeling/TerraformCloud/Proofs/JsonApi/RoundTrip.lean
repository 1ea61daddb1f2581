/-
  TerraformCloud/Proofs/JsonApi/RoundTrip.lean
  ============================================
  **A resource that was read can be sent back, and is then read as the same.**

  Attributes read back whatever they are.  Relationships do where their links are a value
  that arrives (`Recoverable`): not `null`, which would be no links at all, with members
  in order, and nested no deeper than the document has room for.  Every relationship of a
  document that was read has such links, so what was read is read again
  (`decodeOne_body`), alone or in a list (`decodeList_body`).
-/
import TerraformCloud.JsonApi.Body
import TerraformCloud.Proofs.JsonApi.Lists
import TerraformCloud.Proofs.Schema.RoundTrip

namespace TerraformCloud

open Json (Value Written Sendable)
open Json.Value (written ordered)

/-! ## 1. Structures -/

section Recorded

variable {α : Type} [Recorded α]

theorem Recorded.read?_write (h : (Schema.FieldType.record (fields α)).wellFormed = true) (a : α)
    {depth : Nat} (hdepth : (Schema.FieldType.record (fields α)).depth ≤ depth) :
    read? α depth (write a).written = some a := by
  have hread := (Schema.FieldType.record (fields α)).read?_write h (record a) depth hdepth
  rw [read?]
  exact (congrArg (Option.map ofRecord) hread).trans (congrArg some (ofRecord_record a))

theorem Recorded.sendable_write (h : (Schema.FieldType.record (fields α)).wellFormed = true) (a : α) :
    Sendable (write a) (Schema.FieldType.record (fields α)).depth :=
  (Schema.FieldType.record (fields α)).sendable_write h (record a)

end Recorded

/-! ## 2. Relationships -/

theorem Identifier.sendable_write (i : Identifier) : Sendable i.write 1 := by
  have hkeys : (["type", "id"] : List String).Nodup := by decide
  refine Sendable.object hkeys fun m hm => ?_
  simp only [List.mem_cons, List.not_mem_nil, or_false] at hm
  rcases hm with rfl | rfl
  · exact .string _
  · exact .string _

theorem Identifier.read?_write (i : Identifier) {depth : Nat} (h : 0 < depth) :
    Identifier.read? depth i.write.written = some i := by
  have hslots : slotsWithin? ["type", "id"] depth i.write.written =
      some [some (.string (some i.type)), some (.string (some i.id))] := by
    rw [slotsWithin?, if_neg (by omega)]
    rfl
  rw [Identifier.read?, hslots]
  rfl

theorem Linkage.sendable_write (l : Linkage) : Sendable l.write 2 := by
  cases l with
  | nothing => exact .null
  | one target => exact target.sendable_write.mono (by decide)
  | many targets =>
    refine Sendable.array fun v hv => ?_
    obtain ⟨i, -, rfl⟩ := List.mem_map.1 hv
    exact i.sendable_write

theorem Identifier.read?_null (depth : Nat) : Identifier.read? depth .null = none := by
  have hslots : slotsWithin? ["type", "id"] depth .null = none := by
    rw [slotsWithin?]
    split <;> rfl
  rw [Identifier.read?, hslots]

theorem Linkage.read?_write (l : Linkage) {depth : Nat} (h : 2 ≤ depth) :
    Linkage.read? depth l.write.written = some l := by
  rw [Linkage.read?, Json.Written.value?_written (l.sendable_write.mono h).depth_le]
  unfold Linkage.readShape?
  cases l with
  | nothing =>
    have hitems : (Schema.itemsOf? nothing.write.written).bind (·.mapM (Identifier.read? (depth - 1))) =
        none := rfl
    have hnone : Identifier.read? depth nothing.write.written = none := Identifier.read?_null depth
    rw [hitems, hnone]
    rfl
  | one target =>
    have hitems :
        (Schema.itemsOf? (one target).write.written).bind (·.mapM (Identifier.read? (depth - 1))) =
        none := rfl
    have hone : Identifier.read? depth (one target).write.written = some target :=
      target.read?_write (by omega)
    rw [hitems, hone]
  | many targets =>
    have hitem : ∀ i ∈ targets, Identifier.read? (depth - 1) (written i.write) = some i :=
      fun i _ => i.read?_write (by omega)
    have hlist :
        (Schema.itemsOf? (many targets).write.written).bind (·.mapM (Identifier.read? (depth - 1))) =
        some targets := by
      rw [Linkage.write, Json.Value.written_array, Schema.itemsOf?, Option.bind_some, List.mapM_map,
        List.mapM_map]
      exact (mapM_eq_some_map hitem).trans (congrArg some (List.map_id _))
    dsimp only
    rw [hlist]

/-- Links that come back: a value, not `null`, with members in order, that arrives in a
    document with room for `depth` levels. -/
structure Recoverable (v : Value) (depth : Nat) : Prop where
  ne_null : v ≠ .null
  canonical : v.Canonical
  depth_le : v.depth ≤ depth
  numbers : ∀ n ∈ v.numbers, n.ReadsBack

theorem Recoverable.sendable {v : Value} {depth : Nat} (h : Recoverable v depth) : Sendable v depth :=
  ⟨h.canonical.distinct, h.depth_le, h.numbers⟩

namespace Relationship

variable {r : Relationship} {depth : Nat}

theorem sendable_write (hdepth : 2 ≤ depth) (h : ∀ v, r.links = some v → Recoverable v depth) :
    Sendable r.write (depth + 1) := by
  obtain ⟨data, links⟩ := r
  have hdata : Sendable data.write depth := data.sendable_write.mono hdepth
  cases links with
  | none =>
    change Sendable (.object [("data", data.write)]) (depth + 1)
    refine Sendable.object (List.nodup_singleton _) fun m hm => ?_
    rw [List.mem_singleton.1 hm]
    exact hdata
  | some v =>
    have hkeys : (["data", "links"] : List String).Nodup := by decide
    change Sendable (.object [("data", data.write), ("links", v)]) (depth + 1)
    refine Sendable.object hkeys fun m hm => ?_
    simp only [List.mem_cons, List.not_mem_nil, or_false] at hm
    rcases hm with rfl | rfl
    · exact hdata
    · exact (h v rfl).sendable

theorem read?_write (hdepth : 2 ≤ depth) (h : ∀ v, r.links = some v → Recoverable v depth) :
    Relationship.read? (depth + 1) r.write.written = some r := by
  obtain ⟨data, links⟩ := r
  have hdata := data.read?_write hdepth
  cases links with
  | none =>
    have hslots : slotsWithin? ["data", "links"] (depth + 1) (Relationship.write ⟨data, none⟩).written =
        some [some data.write.written, none] := rfl
    rw [Relationship.read?, hslots]
    dsimp only [Option.elim_some, Nat.add_one_sub_one]
    rw [hdata]
    rfl
  | some v =>
    have hlinks := h v rfl
    have hslots : slotsWithin? ["data", "links"] (depth + 1) (Relationship.write ⟨data, some v⟩).written =
        some [some data.write.written, some v.written] := rfl
    have hvalue : nullable (Written.value? depth) (some v.written) = some (some v) := by
      rw [nullable_some (Schema.written_ne_null hlinks.ne_null),
        Json.Written.value?_written hlinks.depth_le,
        Json.Value.ordered_of_canonical hlinks.canonical]
      rfl
    rw [Relationship.read?, hslots]
    dsimp only [Option.elim_some, Nat.add_one_sub_one]
    rw [hdata, hvalue]

end Relationship

/-- Relationships whose links come back at this depth. -/
def Relationships.Recoverable (rs : Relationships) (depth : Nat) : Prop :=
  ∀ e ∈ rs.entries, ∀ v, e.2.links = some v → TerraformCloud.Recoverable v depth

namespace Relationships

variable {rs : Relationships} {depth : Nat}

theorem sendable_write (hdepth : 2 ≤ depth) (h : rs.Recoverable depth) :
    Sendable (write rs) (depth + 2) := by
  refine Sendable.object ?_ fun m hm => ?_
  · rw [List.map_map]
    refine (Keyed.keys_ascending rs).imp ?_
    rintro a b hlt rfl
    exact String.lt_irrefl _ hlt
  · obtain ⟨e, he, rfl⟩ := List.mem_map.1 hm
    exact Relationship.sendable_write hdepth (h e he)

theorem read?_write (hdepth : 2 ≤ depth) (h : rs.Recoverable depth) :
    Relationships.read? (depth + 2) (write rs).written = some rs := by
  have hmember : ∀ e ∈ rs.entries, readMember? (depth + 1) (some e.1, e.2.write.written) = some e := by
    intro e he
    rw [readMember?_some, Relationship.read?_write hdepth (h e he)]
    rfl
  rw [write, Json.Value.written_object, read?, if_neg (Nat.succ_ne_zero _), readMembers?_eq, List.mapM_map,
    List.mapM_map]
  have hentries := (mapM_eq_some_map hmember).trans (congrArg some (List.map_id _))
  exact (congrArg (Option.map Keyed.ofList) hentries).trans (congrArg some (Keyed.ofList_entries rs))

end Relationships

/-! ## 3. Resources -/

theorem Draft.attributesMember_object {members : List (String × Value)} (h : members ≠ []) :
    attributesMember (.object members) = .ok [("attributes", .object members)] := by
  cases members with
  | nil => exact absurd rfl h
  | cons m members => rfl

namespace Resource

variable {kind : Kind} {depth : Nat}

/-- The document of a resource that has an id. -/
def sent (r : Resource kind.Attributes) : Value :=
  .object <| [("type", .string (Attributes.type kind.Attributes)), ("id", .string r.id),
      ("attributes", Recorded.write r.attributes)] ++
    if r.relationships.isEmpty then [] else [("relationships", Relationships.write r.relationships)]

/-- Every kind has attributes, so they are never left out. -/
theorem members_ne_nil (a : kind.Attributes) : Recorded.members a ≠ [] := by
  cases kind <;> exact List.cons_ne_nil _ _

theorem write_ofResource {r : Resource kind.Attributes} (hid : r.id ≠ "") :
    (Draft.ofResource r).write = .ok r.sent := by
  have hisEmpty : r.id.isEmpty = false := by
    rwa [String.isEmpty_eq_false_iff]
  have hattributes : Draft.attributesMember (Recorded.write r.attributes) =
      .ok [("attributes", Recorded.write r.attributes)] :=
    Draft.attributesMember_object (members_ne_nil r.attributes)
  rw [Draft.write, Draft.ofResource, hisEmpty, hattributes]
  rfl

theorem sendable_sent {r : Resource kind.Attributes} (hdepth : 2 ≤ depth)
    (hrs : r.relationships.Recoverable depth) : Sendable r.sent (depth + 3) := by
  obtain ⟨hwell, hle⟩ := Schema.wellFormed_attributes kind
  have hattributes := (Recorded.sendable_write hwell r.attributes).mono (show _ ≤ depth + 2 by omega)
  have hrelationships := Relationships.sendable_write hdepth hrs
  rw [sent]
  split
  · have hkeys : (["type", "id", "attributes"] : List String).Nodup := by decide
    refine Sendable.object hkeys fun m hm => ?_
    simp only [List.append_nil, List.mem_cons, List.not_mem_nil, or_false] at hm
    rcases hm with rfl | rfl | rfl
    · exact .string _
    · exact .string _
    · exact hattributes
  · have hkeys : (["type", "id", "attributes", "relationships"] : List String).Nodup := by decide
    refine Sendable.object hkeys fun m hm => ?_
    simp only [List.cons_append, List.nil_append, List.mem_cons, List.not_mem_nil, or_false] at hm
    rcases hm with rfl | rfl | rfl | rfl
    · exact .string _
    · exact .string _
    · exact hattributes
    · exact hrelationships

theorem read?_sent {r : Resource kind.Attributes} (hdepth : 2 ≤ depth)
    (hrs : r.relationships.Recoverable depth) : Resource.read? (depth + 3) r.sent.written = some r := by
  obtain ⟨hwell, hle⟩ := Schema.wellFormed_attributes kind
  have hattributes := Recorded.read?_write hwell r.attributes (show _ ≤ depth + 2 by omega)
  have hslots : slotsWithin? ["id", "attributes", "relationships"] (depth + 3) r.sent.written =
      some [some (.string (some r.id)), some (Recorded.write r.attributes).written,
        if r.relationships.isEmpty then none else some (Relationships.write r.relationships).written] := by
    rw [sent]
    split <;> rfl
  have hrelationships : readRelationships? (depth + 2)
      (if r.relationships.isEmpty then none else some (Relationships.write r.relationships).written) =
        some r.relationships := by
    split
    · next hempty => exact congrArg some (Keyed.eq_empty_of_isEmpty hempty).symm
    · exact Relationships.read?_write hdepth hrs
  rw [Resource.read?, hslots]
  dsimp only [Schema.textOf?]
  rw [show depth + 3 - 1 = depth + 2 from rfl, hattributes, hrelationships]

end Resource

/-! ## 4. What was read comes back -/

theorem mem_numbers_of_slots? {names : List String} {w : Written} {found : List (Option Written)}
    (h : Schema.slots? names w = some found) {x : Written} (hx : some x ∈ found) {n : Option Json.Number}
    (hn : n ∈ x.numbers) : n ∈ w.numbers := by
  unfold Schema.slots? at h
  split at h
  · split at h
    · cases h
    split at h
    · cases h
    cases h
    obtain ⟨name, -, hx⟩ := List.mem_map.1 hx
    obtain ⟨m, hm, rfl⟩ := Option.map_eq_some_iff.1 hx
    exact Json.Tree.mem_numbers_object.2 ⟨m, List.mem_of_find?_eq_some hm, hn⟩
  · split at h
    · cases h
    cases h
    obtain ⟨i, -, hx⟩ := List.mem_map.1 hx
    exact Json.Tree.mem_numbers_array.2 ⟨x, List.mem_of_getElem? hx, hn⟩
  · cases h

theorem slots?_of_slotsWithin? {names : List String} {depth : Nat} {w : Written}
    {found : List (Option Written)}
    (h : slotsWithin? names depth w = some found) : Schema.slots? names w = some found := by
  rw [slotsWithin?] at h
  split at h
  · cases h
  · exact h

theorem value?_ne_null {w : Written} (hw : w ≠ .null) {depth : Nat} {v : Value}
    (h : w.value? depth = some v) : v ≠ .null := by
  rintro rfl
  cases w with
  | null => exact hw rfl
  | bool b => cases h
  | number n => cases n <;> cases h
  | string s => cases s <;> cases h
  | array items =>
    rw [Written.value?] at h
    split at h
    · cases h
    · obtain ⟨vs, -, hvs⟩ := Option.map_eq_some_iff.1 h
      cases hvs
  | object members =>
    rw [Written.value?] at h
    split at h
    · cases h
    · obtain ⟨ms, -, hms⟩ := Option.map_eq_some_iff.1 h
      cases hms

/-- A value that was found in a document: not `null`, and held by a part of it. -/
structure Found (depth : Nat) (w : Written) (v : Value) : Prop where
  ne_null : v ≠ .null
  holds : Written.Holds depth w v

theorem Found.of_part {depth : Nat} {part w : Written} {v : Value} (h : Found depth part v)
    (hpart : ∀ n ∈ part.numbers, n ∈ w.numbers) : Found depth w v :=
  ⟨h.ne_null, h.holds.canonical, h.holds.depth_le, fun n hn => hpart _ (h.holds.numbers n hn)⟩

theorem Relationship.found_of_read? {depth : Nat} {w : Written} {r : Relationship}
    (h : Relationship.read? depth w = some r) {v : Value} (hv : r.links = some v) :
    Found (depth - 1) w v := by
  rw [Relationship.read?] at h
  split at h
  · next data links hslots =>
    split at h
    · next d l hd hl =>
      cases h
      dsimp only at hv
      rw [hv] at hl
      rcases nullable_eq_some_iff.1 hl with ⟨-, hnone⟩ | ⟨x, y, rfl, hnull, hx, heq⟩
      · cases hnone
      · cases heq
        have hfound : Found (depth - 1) x v := ⟨value?_ne_null hnull hx, Json.Written.holds_of_value? hx⟩
        exact hfound.of_part fun n hn => mem_numbers_of_slots? (slots?_of_slotsWithin? hslots) (by simp) hn
    · cases h
  · cases h

theorem Relationships.found_of_read? {depth : Nat} {w : Written} {rs : Relationships}
    (h : Relationships.read? depth w = some rs) {e : String × Relationship} (he : e ∈ rs.entries)
    {v : Value}
    (hv : e.2.links = some v) : Found (depth - 2) w v := by
  cases w with
  | object members =>
    rw [read?] at h
    split at h
    · cases h
    obtain ⟨l, hl, rfl⟩ := Option.map_eq_some_iff.1 h
    rw [readMembers?_eq] at hl
    obtain ⟨m, hm, hread⟩ := exists_mem_of_mapM hl (Keyed.mem_of_mem_ofList he)
    rw [readMember?] at hread
    split at hread
    · next hr =>
      cases hread
      have hfound := Relationship.found_of_read? hr hv
      exact hfound.of_part fun n hn => Json.Tree.mem_numbers_object.2 ⟨m, hm, hn⟩
    · cases hread
  | _ => cases h

theorem Resource.found_of_read? {α : Type} [Recorded α] {depth : Nat} {w : Written} {r : Resource α}
    (h : Resource.read? depth w = some r) {e : String × Relationship} (he : e ∈ r.relationships.entries)
    {v : Value} (hv : e.2.links = some v) : Found (depth - 3) w v := by
  rw [Resource.read?] at h
  split at h
  · next id attributes relationships hslots =>
    split at h
    · next hread =>
      cases h
      match relationships with
      | none =>
        cases hread
        cases he
      | some x =>
        have hfound : Found (depth - 3) x v := Relationships.found_of_read? hread he hv
        exact hfound.of_part fun n hn => mem_numbers_of_slots? (slots?_of_slotsWithin? hslots) (by simp) hn
    · cases h
  · cases h

theorem Document.found_of_read? {α : Type} [Recorded α] {depth : Nat} {w : Written} {d : Document α}
    (h : Document.read? depth w = some d) {e : String × Relationship}
    (he : e ∈ d.data.relationships.entries)
    {v : Value} (hv : e.2.links = some v) : Found (depth - 4) w v := by
  rw [Document.read?] at h
  split at h
  · next data included hslots =>
    split at h
    · next hread _ =>
      cases h
      have hfound : Found (depth - 4) data v := Resource.found_of_read? hread he hv
      exact hfound.of_part fun n hn => mem_numbers_of_slots? (slots?_of_slotsWithin? hslots) (by simp) hn
    · cases h
  · cases h

/-- The numbers in the links of a resource. -/
def Resource.linkNumbers {α : Type} (r : Resource α) : List Json.Number :=
  r.relationships.entries.flatMap fun e => (e.2.links.map Json.Tree.numbers).getD []

/-- Of the numbers of a relationship, as it is shown, only those in its links may come back
    otherwise. -/
theorem Relationship.readsBack_write {r : Relationship}
    (h : ∀ n ∈ (r.links.map Json.Tree.numbers).getD [], n.ReadsBack) : ∀ n ∈ r.write.numbers, n.ReadsBack := by
  obtain ⟨data, links⟩ := r
  intro n hn
  obtain ⟨m, hm, hnumber⟩ := Json.Tree.mem_numbers_object.1 hn
  rcases List.mem_cons.1 hm with rfl | hm
  · exact data.sendable_write.numbers n hnumber
  · cases links with
    | none => cases hm
    | some v =>
      rw [List.mem_singleton.1 hm] at hnumber
      exact h n hnumber

theorem Resource.readsBack_write {kind : Kind} {r : Resource kind.Attributes}
    (h : ∀ n ∈ r.linkNumbers, n.ReadsBack) : ∀ n ∈ r.write.numbers, n.ReadsBack := by
  intro n hn
  obtain ⟨m, hm, hnumber⟩ := Json.Tree.mem_numbers_object.1 hn
  rcases List.mem_append.1 hm with hm | hm
  · simp only [List.mem_cons, List.not_mem_nil, or_false] at hm
    rcases hm with rfl | rfl
    · cases hnumber
    · exact (Recorded.sendable_write (Schema.wellFormed_attributes kind).1 r.attributes).numbers n hnumber
  · split at hm
    · cases hm
    · rw [List.mem_singleton.1 hm] at hnumber
      obtain ⟨_, hrelationship, hnumber⟩ := Json.Tree.mem_numbers_object.1 hnumber
      obtain ⟨e, he, rfl⟩ := List.mem_map.1 hrelationship
      exact Relationship.readsBack_write (fun n hn => h n (List.mem_flatMap.2 ⟨e, he, hn⟩)) n hnumber

/-- A resource is read from the document that the bytes spell. -/
theorem decodeOne_eq_ok {α : Type} [Recorded α] {bytes : Bytes} {r : Resource α}
    (h : decodeOne α bytes = .ok r) :
    ∃ w d, Json.parse? bytes = some w ∧ Document.read? (α := α) Written.depthLimit w = some d ∧
      d.data = r := by
  rw [decodeOne, decodeDocument, ofBytes] at h
  cases hread : (Json.parse? bytes).bind (Document.read? (α := α) Written.depthLimit) with
  | none =>
    rw [hread] at h
    cases h
  | some d =>
    rw [hread] at h
    cases h
    obtain ⟨w, hw, hd⟩ := Option.bind_eq_some_iff.1 hread
    exact ⟨w, d, hw, hd, rfl⟩

/-- **The links that were read come back**, if their doubles do: integers are machine words. -/
theorem recoverable_of_decodeOne {α : Type} [Recorded α] {bytes : Bytes} {r : Resource α}
    (h : decodeOne α bytes = .ok r)
    (hreal : ∀ x, .real x ∈ r.linkNumbers → (Json.Number.real x).ReadsBack) :
    r.relationships.Recoverable 123 := by
  obtain ⟨w, d, hw, hd, rfl⟩ := decodeOne_eq_ok h
  intro e he v hv
  have hfound : Found 123 w v := Document.found_of_read? hd he hv
  refine ⟨hfound.ne_null, hfound.holds.canonical, hfound.holds.depth_le, fun n hn => ?_⟩
  cases n with
  | integer n =>
    exact Json.Number.readsBack_integer (Json.wordIntegers_of_parse? hw n (hfound.holds.numbers _ hn))
  | real x =>
    refine hreal x (List.mem_flatMap.2 ⟨e, he, ?_⟩)
    rw [hv]
    exact hn

/-! ## 5. Bodies -/

/-- The document of one resource. -/
theorem parse?_ofData {kind : Kind} {r : Resource kind.Attributes} (hrs : r.relationships.Recoverable 123) :
    Json.parse? (Body.ofData r.sent).bytes = some (primaryDocument r.sent.ordered) := by
  have hsend : Sendable r.sent 126 := Resource.sendable_sent (by decide) hrs
  have hdata : Sendable (.object [("data", r.sent)]) 127 :=
    Sendable.object (List.nodup_singleton _) fun m hm => by rwa [List.mem_singleton.1 hm]
  have hordered : ordered (.object [("data", r.sent)]) = .object [("data", r.sent.ordered)] := by
    rw [Json.Value.ordered_object]
    rfl
  refine hdata.parse?_ordered.trans ?_
  rw [hordered, Json.Value.written_object]
  rfl

/-- The document of one resource, as it is read. -/
theorem decodeOne_ofData {kind : Kind} {r : Resource kind.Attributes}
    (hrs : r.relationships.Recoverable 123) :
    decodeOne kind.Attributes (Body.ofData r.sent).bytes = .ok r := by
  have hsend : Sendable r.sent 126 := Resource.sendable_sent (by decide) hrs
  have hfits : Schema.Fits r.sent 126 126 := ⟨hsend.distinct, hsend.depth_le, hsend.depth_le⟩
  rw [decodeOne_eq_ok_iff (parse?_ofData hrs), Resource.stable r.sent 126 126 hfits]
  exact Resource.read?_sent (by decide) hrs

/-- The document of one resource is no list. -/
theorem decodeList_ofData {kind : Kind} {r : Resource kind.Attributes} (hrs : r.relationships.Recoverable 123)
    {α π : Type} [Recorded α] [Recorded π] :
    decodeList α π (Body.ofData r.sent).bytes = .error .invalidListDocument := by
  have hsend : Sendable r.sent 126 := Resource.sendable_sent (by decide) hrs
  have hparse : Json.parse? (Body.ofData r.sent).bytes = some (listDocument (some r.sent.ordered) none) :=
    parse?_ofData hrs
  refine (decodeList_of_not_array ?_ hparse).2 ⟨none, .missing⟩
  rintro v ⟨⟩
  refine ⟨Json.Value.depth_ordered_le hsend.depth_le, fun items hitems => ?_⟩
  rw [Resource.sent, Json.Value.ordered_object] at hitems
  cases hitems

/-- The body of one resource, as it is read. -/
theorem decodeOne_body {kind : Kind} {r : Resource kind.Attributes} (hid : r.id ≠ "")
    (hrs : r.relationships.Recoverable 123) :
    ∃ body, Body.resource (.ofResource r) = .ok body ∧ decodeOne kind.Attributes body.bytes = .ok r := by
  refine ⟨Body.ofData r.sent, ?_, decodeOne_ofData hrs⟩
  rw [Body.resource, Resource.write_ofResource hid]
  rfl

theorem mapM_write_ofResource {kind : Kind} {rs : List (Resource kind.Attributes)}
    (h : ∀ r ∈ rs, r.id ≠ "") :
    (rs.map Draft.ofResource).mapM Draft.write = .ok (rs.map Resource.sent) := by
  induction rs with
  | nil => rfl
  | cons r rs ih =>
    rw [List.map_cons, List.mapM_cons, Resource.write_ofResource (h r List.mem_cons_self),
      ih fun r hr => h r (List.mem_cons_of_mem _ hr)]
    rfl

/-- The document of a list of resources, with something else to say or without. -/
def sentList {kind : Kind} (rs : List (Resource kind.Attributes)) (more : Option Value) : Value :=
  .object (("data", .array (rs.map Resource.sent)) :: (more.map fun m => ("meta", m)).toList)

section Lists

variable {kind : Kind} {rs : List (Resource kind.Attributes)} {more : Option Value}

theorem ordered_sentList :
    (sentList rs more).ordered.written =
      listDocument (some (.array (rs.map fun r => r.sent.ordered)))
        (more.map fun m => m.ordered.written) := by
  have hdata : ordered (.array (rs.map Resource.sent)) = .array (rs.map fun r => r.sent.ordered) := by
    rw [Json.Value.ordered_array, List.map_map]
    rfl
  rw [sentList, Json.Value.ordered_object]
  cases more with
  | none =>
    rw [Option.map_none, Option.toList_none, List.map_singleton, hdata,
      Json.Value.orderMembers_of_ascending (List.pairwise_singleton _ _), Json.Value.written_object]
    rfl
  | some m =>
    have hkeys : "data" < "meta" := by decide
    rw [Option.map_some, Option.toList_some, List.map_cons, List.map_singleton, hdata,
      Json.Value.orderMembers_of_ascending (List.pairwise_pair.2 hkeys), Json.Value.written_object]
    rfl

theorem sendable_sentList (hrs : ∀ r ∈ rs, r.relationships.Recoverable 122)
    (hmore : ∀ m, more = some m → Sendable m 126) : Sendable (sentList rs more) 127 := by
  have hdata : Sendable (.array (rs.map Resource.sent)) 126 := by
    refine Sendable.array fun v hv => ?_
    obtain ⟨r, hr, rfl⟩ := List.mem_map.1 hv
    exact Resource.sendable_sent (by decide) (hrs r hr)
  cases more with
  | none =>
    refine Sendable.object (List.nodup_singleton _) fun m hm => ?_
    rw [List.mem_singleton.1 hm]
    exact hdata
  | some m =>
    have hkeys : (["data", "meta"] : List String).Nodup := by decide
    refine Sendable.object hkeys fun e he => ?_
    simp only [Option.map_some, Option.toList_some, List.mem_cons, List.not_mem_nil, or_false] at he
    rcases he with rfl | rfl
    · exact hdata
    · exact hmore m rfl

/-- The items of a list that was sent have their members in order. -/
theorem ordered_items : ordered (.array (rs.map fun r => r.sent.ordered)) =
    .array (rs.map fun r => r.sent.ordered) := by
  refine Json.Value.ordered_of_canonical ((Json.Value.keys_array_iff _).2 fun v hv => ?_)
  obtain ⟨r, -, rfl⟩ := List.mem_map.1 hv
  exact Json.Value.canonical_ordered r.sent

theorem depth_items (hrs : ∀ r ∈ rs, r.relationships.Recoverable 122) :
    Json.Tree.depth (.array (rs.map fun r => r.sent.ordered) : Value) ≤ 126 := by
  refine Json.Tree.depth_array_le_iff.2 ⟨by decide, fun v hv => ?_⟩
  obtain ⟨r, hr, rfl⟩ := List.mem_map.1 hv
  have hsend : Sendable r.sent 125 := Resource.sendable_sent (by decide) (hrs r hr)
  exact Json.Value.depth_ordered_le hsend.depth_le

/-- The items of a list that was sent are read as they were. -/
theorem mapM_read?_items (hrs : ∀ r ∈ rs, r.relationships.Recoverable 122) :
    (rs.map fun r => r.sent.ordered).mapM
      (fun v => Resource.read? (α := kind.Attributes) Written.depthLimit v.written) = some rs := by
  have hread : ∀ r ∈ rs, Resource.read? (α := kind.Attributes) Written.depthLimit r.sent.ordered.written =
      some r := by
    intro r hr
    have hsend : Sendable r.sent 125 := Resource.sendable_sent (by decide) (hrs r hr)
    have hfits : Schema.Fits r.sent 127 125 :=
      ⟨hsend.distinct, (hsend.mono (by decide)).depth_le, hsend.depth_le⟩
    exact (Resource.stable r.sent 127 125 hfits).trans (Resource.read?_sent (by decide) (hrs r hr))
  rw [List.mapM_map]
  exact (mapM_eq_some_map hread).trans (congrArg some (List.map_id _))

/-- A list that was sent is read as it was, at the position that it reports. -/
theorem decodeList_sentList {π : Type} [Recorded π] (hrs : ∀ r ∈ rs, r.relationships.Recoverable 122)
    (hmore : ∀ m, more = some m → Sendable m 126) {said : Option π}
    (hsaid : Reports π (more.map fun m => m.ordered.written) said) :
    decodeList kind.Attributes π (Utf8.encode (sentList rs more).ordered.compact) =
      .ok ⟨rs, said.getD (Recorded.zero π)⟩ := by
  have hparse := (sendable_sentList hrs hmore).parse?_ordered.trans (congrArg some ordered_sentList)
  have hdepth : ∀ v : Value, some (.array (rs.map fun r => r.sent.ordered)) = some v → v.depth ≤ 126 := by
    rintro v heq
    cases heq
    exact depth_items hrs
  refine decodeList_eq_ok_iff.2 ⟨⟨.array (rs.map fun r => r.sent.ordered), said⟩, _, ?_, rfl,
    mapM_read?_items hrs, rfl⟩
  rw [hparse, Option.bind_some, read?_listDocument hdepth]
  exact ⟨ordered_items.symm, hsaid⟩

/-- Whatever else a list says: the items that are read from it are those that were sent. -/
theorem items_of_decodeList {π : Type} [Recorded π] {m : Value} {page : Page (Resource kind.Attributes) π}
    (hrs : ∀ r ∈ rs, r.relationships.Recoverable 122)
    (hread : decodeList kind.Attributes π (Utf8.encode (sentList rs (some m)).ordered.compact) = .ok page) :
    page.items = rs := by
  have hordered : (sentList rs (some m)).ordered =
      .object [("data", .array (rs.map fun r => r.sent.ordered)), ("meta", m.ordered)] := by
    have hkeys : "data" < "meta" := by decide
    rw [sentList, Json.Value.ordered_object, Option.map_some, Option.toList_some, List.map_cons,
      List.map_singleton, Json.Value.orderMembers_of_ascending (List.pairwise_pair.2 hkeys),
      Json.Value.ordered_array, List.map_map]
    rfl
  have hnumbers : ∀ n ∈ Json.Tree.numbers (.array (rs.map fun r => r.sent.ordered) : Value), n.ReadsBack := by
    intro n hn
    obtain ⟨v, hv, hn⟩ := Json.Tree.mem_numbers_array.1 hn
    obtain ⟨r, hr, rfl⟩ := List.mem_map.1 hv
    have hsend : Sendable r.sent 125 := Resource.sendable_sent (by decide) (hrs r hr)
    exact hsend.numbers n (Json.Value.mem_numbers_of_ordered hn)
  obtain ⟨raw, items, hraw, hitems, hresources, -⟩ := decodeList_eq_ok_iff.1 hread
  obtain ⟨w, hparse, hw⟩ := Option.bind_eq_some_iff.1 hraw
  rw [hordered] at hparse
  obtain ⟨others, rfl⟩ := Json.parse?_compact_cons hnumbers hparse
  obtain ⟨data, meta_, p, hslots, hdata, -, -⟩ := ListDocument.read?_eq_some_iff.1 hw
  rw [Schema.slots?] at hslots
  split at hslots
  · cases hslots
  · split at hslots
    · cases hslots
    · cases hslots
      have hvalue := (Json.Written.value?_written (depth_items hrs)).trans (congrArg some ordered_items)
      have hfirst : raw.data = .array (rs.map fun r => r.sent.ordered) :=
        Option.some.inj (hdata.symm.trans hvalue)
      rw [ListDocument.items?, hfirst] at hitems
      cases hitems
      exact Option.some.inj (hresources.symm.trans (mapM_read?_items hrs))

end Lists

/-- The body of a list of resources, as it is read. -/
theorem decodeList_body {kind : Kind} {π : Type} [Recorded π] {rs : List (Resource kind.Attributes)}
    (h : ∀ r ∈ rs, r.id ≠ "" ∧ r.relationships.Recoverable 122) :
    ∃ body, Body.resources (rs.map .ofResource) = .ok body ∧
      decodeList kind.Attributes π body.bytes = .ok ⟨rs, Recorded.zero π⟩ := by
  refine ⟨Body.ofData (.array (rs.map Resource.sent)), ?_, ?_⟩
  · rw [Body.resources, mapM_write_ofResource fun r hr => (h r hr).1]
    rfl
  · have hnothing : ∀ m, (none : Option Value) = some m → Sendable m 126 := fun m hm => nomatch hm
    exact decodeList_sentList (fun r hr => (h r hr).2) hnothing .missing

/-- **Encoding undoes decoding**, for resources of every kind: what was read from a
    document, with an id, is sent back in a body that is read as the same resource, and
    a list of such resources in a body that is read as the same list.  The numbers in
    links have to survive being written and read; integers do, and of a double it is
    assumed.  In a list links may be nested one level less. -/
theorem decode_body_of_decodeOne (kind : Kind) :
    (∀ (bytes : Bytes) (r : Resource kind.Attributes), decodeOne kind.Attributes bytes = .ok r → r.id ≠ "" →
      (∀ x, .real x ∈ r.linkNumbers → (Json.Number.real x).ReadsBack) →
        ∃ body, Body.resource (.ofResource r) = .ok body ∧ decodeOne kind.Attributes body.bytes = .ok r) ∧
    ∀ (π : Type) [Recorded π] (rs : List (Resource kind.Attributes)),
      (∀ r ∈ rs, (∃ bytes, decodeOne kind.Attributes bytes = .ok r) ∧ r.id ≠ "" ∧
        (∀ x, .real x ∈ r.linkNumbers → (Json.Number.real x).ReadsBack) ∧
        ∀ e ∈ r.relationships.entries, ∀ v, e.2.links = some v → v.depth ≤ 122) →
          ∃ body, Body.resources (rs.map .ofResource) = .ok body ∧
            decodeList kind.Attributes π body.bytes = .ok ⟨rs, Recorded.zero π⟩ := by
  constructor
  · intro bytes r h hid hreal
    exact decodeOne_body hid (recoverable_of_decodeOne h hreal)
  · intro π _ rs hrs
    refine decodeList_body fun r hr => ?_
    obtain ⟨⟨bytes, h⟩, hid, hreal, hdepth⟩ := hrs r hr
    refine ⟨hid, fun e he v hv => ?_⟩
    obtain ⟨hne, hcanonical, -, hnumbers⟩ := recoverable_of_decodeOne h hreal e he v hv
    exact ⟨hne, hcanonical, hdepth e he v hv, hnumbers⟩

/-- One and a half. -/
def threeHalves : Json.Number := .real ⟨0x3FF8000000000000⟩

theorem readsBack_threeHalves : threeHalves.ReadsBack := by
  have hscale : Json.Number.scaleDown (Binary64.ofNat 15) 1 = ⟨0x3FF8000000000000⟩ := by
    rw [Json.Number.scaleDown, if_pos (by decide)]
    decide +kernel
  have htext : threeHalves.text = ['1', '.', '5'] := by decide +kernel
  refine (Json.Number.readsBack_iff _).2 ⟨⟨false, [1], some [5], none⟩, [], ?_, ?_, rfl⟩
  · rw [htext]
    decide +kernel
  · change (some (Json.Number.scaleDown (Binary64.ofNat 15) 1)).map Json.Number.real = _
    rw [hscale]
    rfl

/-- A run in a state that no vocabulary knows, created at a time with an offset, with a
    double in the links of its workspace. -/
def sampleRun : Value :=
  .object
    [("relationships", .object
       [("workspace", .object
         [("links", .object [("weight", .number threeHalves)]),
          ("data", .object [("type", .string "workspaces"), ("id", .string "ws-1")])])]),
     ("id", .string "run-1"),
     ("attributes", .object
       [("status", .string "dreaming"), ("created-at", .string "2024-03-01T01:30:00.5+02:00")])]

def sampleRunRead : Resource Run :=
  ⟨"run-1",
    ⟨.unknown, none, none, none, false, false, false, false, ⟨false, false, false, false⟩,
      Instant.ofText? "2024-02-29T23:30:00.5Z"⟩,
    .ofList [("workspace", ⟨.one ⟨"workspaces", "ws-1"⟩, some (.object [("weight", .number threeHalves)])⟩)]⟩

theorem decode_body_of_run :
    decodeOne Run (Utf8.encode (Json.Value.compact (.object [("data", sampleRun)]))) = .ok sampleRunRead ∧
    (∃ body, Body.resource (.ofResource sampleRunRead) = .ok body ∧
      decodeOne Run body.bytes = .ok sampleRunRead) ∧
    ∃ body, Body.resources [.ofResource sampleRunRead, .ofResource sampleRunRead] = .ok body ∧
      decodeList Run Pagination body.bytes = .ok ⟨[sampleRunRead, sampleRunRead], Recorded.zero Pagination⟩ := by
  have hnumbers : ∀ n ∈ Json.Tree.numbers (.object [("data", sampleRun)] : Value), n.ReadsBack := by
    intro n hn
    have hmem : n ∈ [threeHalves] := hn
    rw [List.mem_singleton.1 hmem]
    exact readsBack_threeHalves
  have hparse : Json.parse? (Utf8.encode (Json.Value.compact (.object [("data", sampleRun)]))) =
      some (primaryDocument sampleRun) := Json.parse?_compact _ hnumbers
  have hread : decodeOne Run _ = .ok sampleRunRead := (decodeOne_eq_ok_iff hparse sampleRunRead).2 rfl
  have hreal : ∀ x, .real x ∈ sampleRunRead.linkNumbers → (Json.Number.real x).ReadsBack := by
    intro x hx
    have hmem : Json.Number.real x ∈ [threeHalves] := hx
    rw [List.mem_singleton.1 hmem]
    exact readsBack_threeHalves
  have hid : sampleRunRead.id ≠ "" := by decide
  obtain ⟨hone, hmany⟩ := decode_body_of_decodeOne .run
  refine ⟨hread, hone _ _ hread hid hreal, hmany Pagination [sampleRunRead, sampleRunRead] fun r hr => ?_⟩
  simp only [List.mem_cons, List.not_mem_nil, or_false, or_self] at hr
  rw [hr]
  refine ⟨⟨_, hread⟩, hid, hreal, fun e he v hv => ?_⟩
  have hmem : e ∈ [("workspace", (⟨.one ⟨"workspaces", "ws-1"⟩,
    some (.object [("weight", .number threeHalves)])⟩ : Relationship))] := he
  rw [List.mem_singleton.1 hmem] at hv
  cases hv
  decide

end TerraformCloud
