/-
  TerraformCloud/Proofs/Schema/RoundTrip.lean
  ===========================================
  **Records are read as they were written.**

  Not every type of field can tell its values apart by what they are written as: of an
  optional inside an optional both absences are `null`, and of two fields with one name
  only one is found.  A type with neither (`wellFormed`) reads back every value
  (`FieldType.read?_write`), and so do the types of all attributes, because each leaf
  does: words by their spelling, instants by their parts.
-/
import TerraformCloud.Kind
import TerraformCloud.Proofs.Json.Sendable
import TerraformCloud.Proofs.Schema.Stable
import TerraformCloud.Proofs.Time.Instant

namespace TerraformCloud.Schema

open Json (Value Written Sendable)
open Json.Value (written)

/-! ## 1. Types whose values are told apart -/

def FieldType.isOptional : FieldType → Bool
  | .optional _ => true
  | _ => false

mutual
/-- Whether values of the type are written differently from each other. -/
def FieldType.wellFormed : FieldType → Bool
  | .optional type => !type.isOptional && type.wellFormed
  | .list type => type.wellFormed
  | .record fields => decide fields.names.Nodup && fields.wellFormed
  | _ => true

def Fields.wellFormed : Fields → Bool
  | .nil => true
  | .cons _ _ type rest => type.wellFormed && rest.wellFormed
end

theorem wellFormed_optional_iff {type : FieldType} :
    (FieldType.optional type).wellFormed = true ↔ type.isOptional = false ∧ type.wellFormed = true := by
  rw [FieldType.wellFormed, Bool.and_eq_true, Bool.not_eq_true']

theorem wellFormed_record_iff {fields : Fields} :
    (FieldType.record fields).wellFormed = true ↔ fields.names.Nodup ∧ fields.wellFormed = true := by
  rw [FieldType.wellFormed, Bool.and_eq_true, decide_eq_true_iff]

theorem wellFormed_cons_iff {name : String} {presence : Presence} {type : FieldType} {rest : Fields} :
    (Fields.cons name presence type rest).wellFormed = true ↔
      type.wellFormed = true ∧ rest.wellFormed = true := by
  rw [Fields.wellFormed, Bool.and_eq_true]

mutual
/-- How deep the values of the type are nested when they are written. -/
def FieldType.depth : FieldType → Nat
  | .optional type => type.depth
  | .list type => type.depth + 1
  | .record fields => fields.depth + 1
  | _ => 0

def Fields.depth : Fields → Nat
  | .nil => 0
  | .cons _ _ type rest => max type.depth rest.depth
end

/-- **The attributes of every kind are well-formed**, and nested three deep at most. -/
theorem wellFormed_attributes (kind : Kind) :
    (FieldType.record (Recorded.fields kind.Attributes)).wellFormed = true ∧
      (FieldType.record (Recorded.fields kind.Attributes)).depth ≤ 3 := by
  cases kind <;> decide

/-! ## 2. What is written can be sent -/

theorem Fields.keys_write (fields : Fields) (r : fields.Record) :
    (fields.write r).map (·.1) = fields.names := by
  match fields with
  | .nil => rfl
  | .cons name _ _ rest => exact congrArg (name :: ·) (rest.keys_write r.2)

mutual
/-- **Every value of a well-formed type is written as a value that arrives.** -/
theorem FieldType.sendable_write : (type : FieldType) → type.wellFormed = true → (x : type.Value) →
    Sendable (type.write x) type.depth
  | .text, _, s => .string s
  | .flag, _, b => .bool b
  | .natural32, _, n => .nat (Nat.lt_trans n.toNat_lt (by decide))
  | .natural64, _, n => .nat n.toNat_lt
  | .time, _, t => .string t.text
  | .word v, _, w => .string (v.spelling w)
  | .optional _, _, none => .null
  | .optional type, h, some x => type.sendable_write (wellFormed_optional_iff.1 h).2 x
  | .list type, h, xs => by
    refine Sendable.array fun v hv => ?_
    obtain ⟨x, -, rfl⟩ := List.mem_map.1 hv
    exact type.sendable_write h x
  | .record fields, h, r => by
    obtain ⟨hnames, hfields⟩ := wellFormed_record_iff.1 h
    refine Sendable.object ?_ (fields.sendable_write hfields r)
    rwa [fields.keys_write]

theorem Fields.sendable_write : (fields : Fields) → fields.wellFormed = true → (r : fields.Record) →
    ∀ m ∈ fields.write r, Sendable m.2 fields.depth
  | .nil, _, _ => fun m hm => absurd hm List.not_mem_nil
  | .cons name presence type rest, h, (x, r) => by
    obtain ⟨htype, hrest⟩ := wellFormed_cons_iff.1 h
    intro m hm
    rcases List.mem_cons.1 hm with rfl | hm
    · exact (type.sendable_write htype x).mono (Nat.le_max_left _ _)
    · exact (rest.sendable_write hrest r m hm).mono (Nat.le_max_right _ _)
end

/-! ## 3. What is written is read -/

theorem read?_spelling (v : Vocabulary) (w : v.Word) : v.read? (v.spelling w) = some w := by
  cases v <;> cases w <;> rfl

theorem naturalBelow?_nat {limit n : Nat} (h : n < limit) :
    naturalBelow? limit (written (Json.Value.nat n)) = some n := by
  change (if 0 ≤ (n : Int) ∧ ((n : Int)).toNat < limit then some ((n : Int)).toNat else none) = some n
  rw [Int.toNat_natCast, if_pos ⟨by omega, h⟩]

/-- Only an optional value is written as `null`. -/
theorem write_ne_null {type : FieldType} (h : type.isOptional = false) (x : type.Value) :
    type.write x ≠ .null := by
  cases type with
  | optional type => cases h
  | _ => intro heq; cases heq

/-- What is found for the names of members is the members. -/
theorem valueSlots?_keys {members : List (String × Value)} (h : (members.map (·.1)).Nodup) :
    valueSlots? (members.map (·.1)) (.object members) = some (members.map fun m => some m.2) := by
  rw [valueSlots?, List.map_map]
  refine congrArg some (List.map_congr_left fun m hm => ?_)
  rw [Function.comp_apply, Keyed.find?_eq_of_nodup h hm]
  rfl

mutual
/-- **Reading undoes writing**, at every depth that leaves room for the type. -/
theorem FieldType.read?_write : (type : FieldType) → type.wellFormed = true → (x : type.Value) →
    ∀ depth, type.depth ≤ depth → type.read? depth (type.write x).written = some x
  | .text, _, s, _, _ => rfl
  | .flag, _, b, _, _ => rfl
  | .natural32, _, n, _, _ => by
    change (naturalBelow? UInt32.size (written (Json.Value.nat n.toNat))).map UInt32.ofNat = some n
    rw [naturalBelow?_nat n.toNat_lt, Option.map_some, UInt32.ofNat_toNat]
  | .natural64, _, n, _, _ => by
    change (naturalBelow? UInt64.size (written (Json.Value.nat n.toNat))).map UInt64.ofNat = some n
    rw [naturalBelow?_nat n.toNat_lt, Option.map_some, UInt64.ofNat_toNat]
  | .time, _, t, _, _ => by
    change (some (Instant.text t)).bind Instant.ofText? = some t
    rw [Option.bind_some, Instant.ofText?_text]
  | .word v, _, w, _, _ => read?_spelling v w
  | .optional _, _, none, _, _ => rfl
  | .optional type, h, some x, depth, hdepth => by
    obtain ⟨hpresent, htype⟩ := wellFormed_optional_iff.1 h
    have hread := type.read?_write htype x depth hdepth
    change (match written (type.write x) with
      | .null => some none
      | w => (type.read? depth w).map some) = some (some x)
    split
    · next heq => exact absurd heq (written_ne_null (write_ne_null hpresent x))
    · rw [hread]
      rfl
  | .list type, h, xs, depth, hdepth => by
    have hpos : depth ≠ 0 := Nat.ne_of_gt (Nat.lt_of_lt_of_le (Nat.succ_pos _) hdepth)
    have hread : ∀ x ∈ xs, type.read? (depth - 1) (type.write x).written = some x :=
      fun x _ => type.read?_write h x (depth - 1) (Nat.le_sub_one_of_lt hdepth)
    change (if depth = 0 then none else (itemsOf? (written (.array (xs.map type.write)))).bind
      (·.mapM (type.read? (depth - 1)))) = some xs
    rw [if_neg hpos, Json.Value.written_array, itemsOf?, Option.bind_some, List.mapM_map, List.mapM_map]
    exact (mapM_eq_some_map hread).trans (congrArg some (List.map_id _))
  | .record fields, h, r, depth, hdepth => by
    have hdistinct : Json.Value.Distinct (.object (fields.write r)) :=
      ((FieldType.record fields).sendable_write h r).distinct
    obtain ⟨hnames, hfields⟩ := wellFormed_record_iff.1 h
    have hread := fields.read?_write hfields r (depth - 1) (Nat.le_sub_one_of_lt hdepth)
    have hslots : slots? fields.names (written (.object (fields.write r))) =
        some ((fields.write r).map fun m => some m.2.written) := by
      have hkeys := fields.keys_write r
      rw [slots?_written hdistinct, ← hkeys, valueSlots?_keys (hkeys ▸ hnames), Option.map_some,
        List.map_map]
      rfl
    have hpos : depth ≠ 0 := Nat.ne_of_gt (Nat.lt_of_lt_of_le (Nat.succ_pos _) hdepth)
    change (FieldType.record fields).read? depth (written (.object (fields.write r))) = some r
    rw [read?_record rfl, slotsWithin?, if_neg hpos, hslots, Option.bind_some, hread]

theorem Fields.read?_write : (fields : Fields) → fields.wellFormed = true → (r : fields.Record) →
    ∀ depth, fields.depth ≤ depth →
      fields.read? depth ((fields.write r).map fun m => some m.2.written) = some r
  | .nil, _, _, _, _ => rfl
  | .cons name presence type rest, h, (x, r), depth, hdepth => by
    obtain ⟨htype, hrest⟩ := wellFormed_cons_iff.1 h
    have hx := type.read?_write htype x depth (Nat.le_trans (Nat.le_max_left _ _) hdepth)
    have hr := rest.read?_write hrest r depth (Nat.le_trans (Nat.le_max_right _ _) hdepth)
    change (Fields.cons name presence type rest).read? depth
      (some (type.write x).written :: (rest.write r).map fun m => some m.2.written) = some (x, r)
    rw [read?_cons, List.head?_cons, Option.join_some, List.tail_cons, Fields.value?, hx, hr]
    rfl
end

end TerraformCloud.Schema
