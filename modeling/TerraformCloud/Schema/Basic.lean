/-
  TerraformCloud/Schema/Basic.lean
  ================================
  **What the attributes of a resource look like.**

  The attributes of each kind of resource are described by a list of fields: name,
  whether the field may be missing, and type.  The description is data, so reading,
  writing and every law about them is said once for all kinds.  `Fields.Record` turns
  a description into the type of its values.
-/
import TerraformCloud.Json.Tree
import TerraformCloud.Schema.Vocabulary
import TerraformCloud.Time.Instant

namespace TerraformCloud.Schema

/-- Whether a field may be missing. -/
inductive Presence where
  | required
  /-- A missing field has the zero of its type, but an array has to hold the field. -/
  | omittable
  /-- A missing field has the zero of its type. -/
  | defaulted
deriving DecidableEq, Repr

mutual
/-- The type of a field. -/
inductive FieldType where
  | text
  | flag
  /-- A natural number below `2 ^ 32`. -/
  | natural32
  /-- A natural number below `2 ^ 64`. -/
  | natural64
  | time
  | word (v : Vocabulary)
  /-- A value or `null`. -/
  | optional (type : FieldType)
  | list (type : FieldType)
  | record (fields : Fields)

/-- The fields of a record, in the order they are written. -/
inductive Fields where
  | nil
  | cons (name : String) (presence : Presence) (type : FieldType) (rest : Fields)
end

/-! ### Values -/

mutual
/-- The values of a field type. -/
@[reducible] def FieldType.Value : FieldType → Type
  | .text => String
  | .flag => Bool
  | .natural32 => UInt32
  | .natural64 => UInt64
  | .time => Instant
  | .word v => v.Word
  | .optional type => Option type.Value
  | .list type => List type.Value
  | .record fields => fields.Record

/-- The records with these fields. -/
@[reducible] def Fields.Record : Fields → Type
  | .nil => Unit
  | .cons _ _ type rest => type.Value × rest.Record
end

mutual
/-- The value of a field that is missing. -/
def FieldType.zero : (type : FieldType) → type.Value
  | .text => ("" : String)
  | .flag => false
  | .natural32 => (0 : UInt32)
  | .natural64 => (0 : UInt64)
  | .time => (⟨⟨1970, 1, 1, by decide, by decide, by decide⟩, ⟨0, by decide⟩, 0, 0⟩ : Instant)
  | .word v => v.first
  | .optional _ => none
  | .list _ => []
  | .record fields => fields.zero

def Fields.zero : (fields : Fields) → fields.Record
  | .nil => ()
  | .cons _ _ type rest => (type.zero, rest.zero)
end

namespace Fields

def names : Fields → List String
  | .nil => []
  | .cons name _ _ rest => name :: rest.names

def presences : Fields → List Presence
  | .nil => []
  | .cons _ presence _ rest => presence :: rest.presences

def ofList : List (String × Presence × FieldType) → Fields
  | [] => .nil
  | (name, presence, type) :: rest => .cons name presence type (ofList rest)

end Fields

mutual
def FieldType.decEq : (type : FieldType) → DecidableEq type.Value
  | .text => inferInstanceAs (DecidableEq String)
  | .flag => inferInstanceAs (DecidableEq Bool)
  | .natural32 => inferInstanceAs (DecidableEq UInt32)
  | .natural64 => inferInstanceAs (DecidableEq UInt64)
  | .time => inferInstanceAs (DecidableEq Instant)
  | .word v => inferInstanceAs (DecidableEq v.Word)
  | .optional type => letI := type.decEq; inferInstanceAs (DecidableEq (Option type.Value))
  | .list type => letI := type.decEq; inferInstanceAs (DecidableEq (List type.Value))
  | .record fields => fields.decEq

def Fields.decEq : (fields : Fields) → DecidableEq fields.Record
  | .nil => inferInstanceAs (DecidableEq Unit)
  | .cons _ _ type rest =>
    letI := type.decEq
    letI := rest.decEq
    inferInstanceAs (DecidableEq (type.Value × rest.Record))
end

instance (type : FieldType) : DecidableEq type.Value := type.decEq

instance (fields : Fields) : DecidableEq fields.Record := fields.decEq

end TerraformCloud.Schema
