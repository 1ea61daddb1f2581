/-
  TerraformCloud/Proofs/Schema/Stable.lean
  ========================================
  **What is read does not depend on the order of members.**

  A document may be read from its text, or from the value that the text holds, whose
  members have been brought into order.  Both readings give the same, and they do so at
  every depth that leaves room for the document (`Stable`).  A record looks up its fields
  by name, so for records this comes down to their fields (`slotsWithin?_cases`), and for
  every type of field it is an induction on the type (`FieldType.stable`).
-/
import TerraformCloud.Proofs.Json.Ordered
import TerraformCloud.JsonApi.Relationship

namespace TerraformCloud.Schema

open Json (Value Written Tree)
open Json.Value (written ordered Distinct)

/-! ## 1. Finding fields in values -/

/-- What a value without repeated keys holds for each of the names. -/
def valueSlots? (names : List String) : Value → Option (List (Option Value))
  | .object members => some (names.map fun n => (members.find? fun m => m.1 = n).map (·.2))
  | .array items =>
    if names.length < items.length then none
    else some ((List.range names.length).map fun i => items[i]?)
  | _ => none

theorem countP_key_le_one {members : List (String × Value)} (h : (members.map (·.1)).Nodup)
    (name : String) : members.countP (fun m => m.1 = name) ≤ 1 := by
  have hcount : members.countP (fun m => m.1 = name) = (members.map (·.1)).count name := by
    rw [List.count_eq_countP, List.countP_map]
    rfl
  rw [hcount]
  exact List.nodup_iff_count_le_one.1 h name

theorem slots?_written {v : Value} (h : v.Distinct) (names : List String) :
    slots? names v.written = (valueSlots? names v).map (List.map (Option.map written)) := by
  cases v with
  | object members =>
    have hnodup := ((Json.Value.keys_object_iff members).1 h).1
    have hname : ∀ n : String, ((fun m : Option String × Written => decide (m.1 = some n)) ∘
        fun m : String × Value => (some m.1, written m.2)) = fun m => decide (m.1 = n) := by
      intro n
      funext m
      simp
    have hkeys : (members.map fun m => (some m.1, written m.2)).any (fun m => m.1.isNone) = false := by
      rw [List.any_map, List.any_eq_false]
      exact fun m _ => Bool.false_ne_true
    have honce : names.any (fun n => 1 < (members.map fun m => (some m.1, written m.2)).countP
        fun m => m.1 = some n) = false := by
      rw [List.any_eq_false]
      intro n _
      rw [decide_eq_true_iff, List.countP_map, hname]
      exact Nat.not_lt.2 (countP_key_le_one hnodup n)
    rw [Json.Value.written_object, slots?, hkeys, honce, if_neg Bool.false_ne_true,
      if_neg Bool.false_ne_true, valueSlots?, Option.map_some, List.map_map]
    refine congrArg some (List.map_congr_left fun n _ => ?_)
    rw [List.find?_map, hname, Option.map_map, Function.comp_apply, Option.map_map]
    rfl
  | array items =>
    rw [Json.Value.written_array, slots?, valueSlots?, List.length_map]
    split
    · rfl
    · rw [Option.map_some, List.map_map]
      refine congrArg some (List.map_congr_left fun i _ => ?_)
      rw [List.getElem?_map]
      rfl
  | null => rfl
  | bool b => rfl
  | number n => rfl
  | string s => rfl

theorem find?_orderMembers {members : List (String × Value)} (h : (members.map (·.1)).Nodup)
    (name : String) :
    ((Json.Value.orderMembers members).find? fun m => m.1 = name).map (·.2) =
      (members.find? fun m => m.1 = name).map (·.2) := by
  rw [Json.Value.orderMembers_eq, ← Keyed.find?_ofList h]
  rfl

theorem valueSlots?_ordered {v : Value} (h : v.Distinct) (names : List String) :
    valueSlots? names v.ordered = (valueSlots? names v).map (List.map (Option.map ordered)) := by
  cases v with
  | object members =>
    have hnodup := ((Json.Value.keys_object_iff members).1 h).1
    have hkeys : ((members.map fun m => (m.1, ordered m.2)).map (·.1)).Nodup := by
      rwa [List.map_map]
    rw [Json.Value.ordered_object, valueSlots?, valueSlots?, Option.map_some, List.map_map]
    refine congrArg some (List.map_congr_left fun n _ => ?_)
    rw [find?_orderMembers hkeys, List.find?_map, Option.map_map, Function.comp_apply, Option.map_map]
    rfl
  | array items =>
    rw [Json.Value.ordered_array, valueSlots?, valueSlots?, List.length_map]
    split
    · rfl
    · rw [Option.map_some, List.map_map]
      refine congrArg some (List.map_congr_left fun i _ => ?_)
      rw [List.getElem?_map]
      rfl
  | null => rfl
  | bool b => rfl
  | number n => rfl
  | string s => rfl

theorem length_of_valueSlots? {names : List String} {v : Value} {found : List (Option Value)}
    (h : valueSlots? names v = some found) : found.length = names.length := by
  unfold valueSlots? at h
  split at h
  · cases h
    exact List.length_map _
  · split at h
    · cases h
    · cases h
      rw [List.length_map, List.length_range]
  · cases h

/-! ## 2. Stable readers -/

/-- The value has no key twice, and fits into both depths. -/
structure Fits (v : Value) (d d' : Nat) : Prop where
  distinct : v.Distinct
  depth_le : v.depth ≤ d
  depth_le' : v.depth ≤ d'

theorem Fits.item {items : List Value} {d d' : Nat} (h : Fits (.array items) d d') :
    0 < d ∧ 0 < d' ∧ ∀ v ∈ items, Fits v (d - 1) (d' - 1) := by
  obtain ⟨hpos, hd⟩ := Tree.depth_array_le_iff.1 h.depth_le
  obtain ⟨hpos', hd'⟩ := Tree.depth_array_le_iff.1 h.depth_le'
  exact ⟨hpos, hpos', fun v hv => ⟨(Json.Value.keys_array_iff items).1 h.distinct v hv, hd v hv, hd' v hv⟩⟩

theorem Fits.member {members : List (String × Value)} {d d' : Nat} (h : Fits (.object members) d d') :
    0 < d ∧ 0 < d' ∧ ∀ m ∈ members, Fits m.2 (d - 1) (d' - 1) := by
  obtain ⟨hpos, hd⟩ := Tree.depth_object_le_iff.1 h.depth_le
  obtain ⟨hpos', hd'⟩ := Tree.depth_object_le_iff.1 h.depth_le'
  refine ⟨hpos, hpos', fun m hm => ⟨?_, hd m hm, hd' m hm⟩⟩
  exact ((Json.Value.keys_object_iff members).1 h.distinct).2 m hm

/-- What is found in a container lies one level below it. -/
theorem Fits.found {names : List String} {v : Value} {found : List (Option Value)} {d d' : Nat}
    (h : Fits v d d') (hfound : valueSlots? names v = some found) :
    0 < d ∧ 0 < d' ∧ ∀ x, some x ∈ found → Fits x (d - 1) (d' - 1) := by
  unfold valueSlots? at hfound
  split at hfound
  · cases hfound
    obtain ⟨hpos, hpos', hmember⟩ := h.member
    refine ⟨hpos, hpos', fun x hx => ?_⟩
    obtain ⟨n, -, hx⟩ := List.mem_map.1 hx
    obtain ⟨m, hm, rfl⟩ := Option.map_eq_some_iff.1 hx
    exact hmember m (List.mem_of_find?_eq_some hm)
  · split at hfound
    · cases hfound
    · cases hfound
      obtain ⟨hpos, hpos', hitem⟩ := h.item
      refine ⟨hpos, hpos', fun x hx => ?_⟩
      obtain ⟨i, -, hx⟩ := List.mem_map.1 hx
      exact hitem x (List.mem_of_getElem? hx)
  · cases hfound

/-- The reader finds the same in a value with its members in order, at any depth that
    leaves room for it. -/
def Stable {β : Type} (read? : Nat → Written → Option β) : Prop :=
  ∀ v d d', Fits v d d' → read? d v.ordered.written = read? d' v.written

/-- **Fields are found alike.**  Either both readings find no record, or they find the
    same fields in it, one level below. -/
theorem slotsWithin?_cases {v : Value} {d d' : Nat} (hfits : Fits v d d') (names : List String) :
    (slotsWithin? names d v.ordered.written = none ∧ slotsWithin? names d' v.written = none) ∨
    ∃ found : List (Option Value), found.length = names.length ∧
      (∀ x, some x ∈ found → Fits x (d - 1) (d' - 1)) ∧
      slotsWithin? names d v.ordered.written =
        some (found.map (Option.map fun x => x.ordered.written)) ∧
      slotsWithin? names d' v.written = some (found.map (Option.map written)) := by
  have hordered := (Json.Value.canonical_ordered v).distinct
  unfold slotsWithin?
  rw [slots?_written hordered, valueSlots?_ordered hfits.distinct, slots?_written hfits.distinct]
  cases hfound : valueSlots? names v with
  | none => simp
  | some found =>
    obtain ⟨hpos, hpos', hmem⟩ := hfits.found hfound
    refine .inr ⟨found, length_of_valueSlots? hfound, hmem, ?_, ?_⟩
    · rw [if_neg (by omega), Option.map_some, Option.map_some, List.map_map]
      refine congrArg some (List.map_congr_left fun x _ => ?_)
      rw [Function.comp_apply, Option.map_map]
      rfl
    · rw [if_neg (by omega)]
      rfl

/-! ## 3. Leaves and lists -/

theorem textOf?_ordered (v : Value) : textOf? v.ordered.written = textOf? v.written := by
  cases v <;> simp [textOf?, ordered, written]

theorem naturalBelow?_ordered (limit : Nat) (v : Value) :
    naturalBelow? limit v.ordered.written = naturalBelow? limit v.written := by
  cases v <;> simp [naturalBelow?, ordered, written]

/-- Only `null` is written as `null`. -/
theorem written_ne_null {v : Value} (h : v ≠ .null) : v.written ≠ .null := by
  cases v with
  | null => exact absurd rfl h
  | _ => intro heq; cases heq

theorem ordered_ne_null {v : Value} (h : v ≠ .null) : v.ordered ≠ .null := by
  cases v with
  | null => exact absurd rfl h
  | _ => intro heq; cases heq

theorem spellingOf?_of_length {members : List (Option String × Written)} (h : members.length ≠ 1)
    (depth : Nat) : spellingOf? depth (.object members) = none := by
  match members with
  | [] => rfl
  | [m] => exact absurd rfl h
  | (key, w) :: k :: members => cases w <;> rfl

/-- A word is spelled by the same documents, in order or not. -/
theorem stable_spellingOf? : Stable spellingOf? := by
  intro v d d' hfits
  match v, hfits with
  | .null, _ => rfl
  | .bool b, _ => rfl
  | .number n, _ => rfl
  | .string s, _ => rfl
  | .array items, _ => simp [spellingOf?]
  | .object [(key, v)], hfits =>
    obtain ⟨hpos, hpos', -⟩ := hfits.member
    have hone : ordered (.object [(key, v)]) = .object [(key, ordered v)] := by
      rw [Json.Value.ordered_object]
      rfl
    rw [hone, Json.Value.written_object, Json.Value.written_object]
    cases v with
    | null =>
      change (if d = 0 then none else _) = (if d' = 0 then none else _)
      rw [if_neg (by omega), if_neg (by omega)]
    | _ => rfl
  | .object [], _ => rfl
  | .object (m :: k :: members), hfits =>
    have hnodup : (((m :: k :: members).map fun m => (m.1, ordered m.2)).map (·.1)).Nodup := by
      rw [List.map_map]
      exact ((Json.Value.keys_object_iff _).1 hfits.distinct).1
    have hperm := Json.Value.perm_orderMembers hnodup
    rw [Json.Value.ordered_object, Json.Value.written_object, Json.Value.written_object,
      spellingOf?_of_length, spellingOf?_of_length]
    · simp
    · rw [List.length_map, hperm.length_eq]
      simp

/-- Items are read one by one. -/
theorem stable_items {β : Type} {read? : Nat → Written → Option β} (h : Stable read?) :
    Stable fun d w =>
      if d = 0 then none else (itemsOf? w).bind (·.mapM (read? (d - 1))) := by
  intro v d d' hfits
  cases v with
  | array items =>
    obtain ⟨hpos, hpos', hitem⟩ := hfits.item
    dsimp only
    rw [if_neg (by omega), if_neg (by omega), Json.Value.ordered_array, Json.Value.written_array,
      Json.Value.written_array]
    simp only [itemsOf?, Option.bind_some, List.mapM_map, List.map_map]
    exact mapM_congr fun v hv => h v _ _ (hitem v hv)
  | object members => simp [itemsOf?]
  | _ => simp [ordered, written, itemsOf?]

/-- A value or `null`. -/
theorem stable_optional {β : Type} {read? : Nat → Written → Option β} (h : Stable read?) :
    Stable fun d w =>
      match w with
      | .null => some none
      | w => (read? d w).map some := by
  intro v d d' hfits
  by_cases hnull : v = .null
  · rw [hnull]
    rfl
  · dsimp only
    split
    · next heq => exact absurd heq (written_ne_null (ordered_ne_null hnull))
    · split
      · next heq => exact absurd heq (written_ne_null hnull)
      · rw [h v d d' hfits]

/-! ## 4. Types of fields -/

theorem read?_record {fields : Fields} {w : Written} (whole : fields.isCutShort w = false) (depth : Nat) :
    (FieldType.record fields).read? depth w =
      (slotsWithin? fields.names depth w).bind (fields.read? (depth - 1)) := by
  rw [FieldType.read?, slotsWithin?, whole, Bool.or_false]
  by_cases hdepth : depth = 0 <;> simp [hdepth]

theorem read?_record_of_cutShort {fields : Fields} {w : Written} (short : fields.isCutShort w = true)
    (depth : Nat) : (FieldType.record fields).read? depth w = none := by
  rw [FieldType.read?, short, Bool.or_true, if_pos rfl]

theorem isCutShort_ordered (fields : Fields) (v : Value) :
    fields.isCutShort v.ordered.written = fields.isCutShort v.written := by
  cases v with
  | array items =>
    rw [Json.Value.ordered_array, Json.Value.written_array, Json.Value.written_array]
    simp only [Fields.isCutShort, List.length_map]
  | _ => simp [ordered, written, Fields.isCutShort]

/-- A field that was found, or its default. -/
def Fields.value? (presence : Presence) (type : FieldType) (depth : Nat) :
    Option Written → Option type.Value
  | some w => type.read? depth w
  | none => if presence = .required then none else some type.zero

theorem read?_cons_both (name : String) (presence : Presence) (type : FieldType) (rest : Fields)
    (depth : Nat) (found : List (Option Written)) :
    (Fields.cons name presence type rest).read? depth found =
      match Fields.value? presence type depth found.head?.join, rest.read? depth found.tail with
      | some v, some r => some (v, r)
      | _, _ => none := by
  rcases found with _ | ⟨_ | w, found⟩ <;> rfl

theorem read?_cons (name : String) (presence : Presence) (type : FieldType) (rest : Fields)
    (depth : Nat) (found : List (Option Written)) :
    (Fields.cons name presence type rest).read? depth found =
      (Fields.value? presence type depth found.head?.join).bind fun v =>
        (rest.read? depth found.tail).map fun r => (v, r) := by
  rw [read?_cons_both]
  cases Fields.value? presence type depth found.head?.join with
  | none => rfl
  | some v => cases rest.read? depth found.tail <;> rfl

mutual
/-- **Every type of field is read alike.** -/
theorem FieldType.stable : (type : FieldType) → Stable type.read?
  | .text => fun v d d' _ => textOf?_ordered v
  | .flag => by
    intro v d d' _
    cases v <;> simp [FieldType.read?, ordered, written]
  | .natural32 => by
    intro v d d' _
    rw [FieldType.read?, FieldType.read?, naturalBelow?_ordered]
  | .natural64 => by
    intro v d d' _
    rw [FieldType.read?, FieldType.read?, naturalBelow?_ordered]
  | .time => by
    intro v d d' _
    rw [FieldType.read?, FieldType.read?, textOf?_ordered]
  | .word w => by
    intro v d d' hfits
    rw [FieldType.read?, FieldType.read?, stable_spellingOf? v d d' hfits]
  | .optional type => by
    intro v d d' hfits
    exact stable_optional type.stable v d d' hfits
  | .list type => by
    intro v d d' hfits
    exact stable_items type.stable v d d' hfits
  | .record fields => by
    intro v d d' hfits
    have hcut := isCutShort_ordered fields v
    cases hwhole : fields.isCutShort v.written with
    | true => rw [read?_record_of_cutShort (hcut.trans hwhole), read?_record_of_cutShort hwhole]
    | false =>
    rw [read?_record (hcut.trans hwhole), read?_record hwhole]
    rcases slotsWithin?_cases hfits fields.names with ⟨h, h'⟩ | ⟨found, -, hmem, h, h'⟩
    · rw [h, h']
      rfl
    · rw [h, h']
      exact fields.stable found _ _ hmem

/-- Records are read field by field. -/
theorem Fields.stable : (fields : Fields) → ∀ (found : List (Option Value)) (d d' : Nat),
    (∀ x, some x ∈ found → Fits x d d') →
    fields.read? d (found.map (Option.map fun x => x.ordered.written)) =
      fields.read? d' (found.map (Option.map written))
  | .nil => fun _ _ _ _ => rfl
  | .cons name presence type rest => by
    intro found d d' hfits
    have htail : ∀ x, some x ∈ found.tail → Fits x d d' :=
      fun x hx => hfits x (List.mem_of_mem_tail hx)
    rw [read?_cons, read?_cons, ← List.map_tail, ← List.map_tail, rest.stable _ _ _ htail]
    match found, hfits with
    | [], _ => rfl
    | none :: found, _ => rfl
    | some x :: found, hfits =>
      have hx := type.stable x d d' (hfits x List.mem_cons_self)
      simp only [List.map_cons, Option.map_some, List.head?_cons, Option.join_some, Fields.value?]
      rw [hx]
end

end TerraformCloud.Schema
