/-
  TerraformCloud/Schema/Document.lean
  ===================================
  **Reading and writing records as JSON.**

  A record is written as an object with its fields in order.  It is read from an
  object, in which fields may stand in any order and unknown members are passed over
  without a look at their contents, or from an array of the fields in order.  Some of the
  fields that may be missing from an object are missed in an array.  A field given twice, a value of the wrong type, or more nesting than allowed is an error.
  A word of a vocabulary is written as a text, and is read from one or from an object
  that has the word as its only key and `null` behind it.
-/
import TerraformCloud.Json.Tree
import TerraformCloud.Schema.Basic

namespace TerraformCloud.Schema

open Json (Value Written)

/-! ### Finding fields -/

/-- What a document holds for each of the names: nothing, or a value.  Every key has
    to be a text, and no name may occur twice; other keys do not matter.  An array
    gives the values by position and may not be longer than the names. -/
def slots? (names : List String) : Written → Option (List (Option Written))
  | .object members =>
    if members.any (fun m => m.1.isNone) then none
    else if names.any (fun n => 1 < members.countP (fun m => m.1 = some n)) then none
    else some (names.map fun n => (members.find? (fun m => m.1 = some n)).map (·.2))
  | .array items =>
    if names.length < items.length then none
    else some ((List.range names.length).map fun i => items[i]?)
  | _ => none

/-- Whether a document is an array that ends in front of a field that it has to hold. -/
def Fields.isCutShort (fields : Fields) : Written → Bool
  | .array items => (fields.presences.drop items.length).contains .omittable
  | _ => false

theorem Fields.isCutShort_eq_false {fields : Fields} (h : .omittable ∉ fields.presences) (w : Written) :
    fields.isCutShort w = false := by
  cases w with
  | array items => simpa [isCutShort] using fun hmem => h (List.mem_of_mem_drop hmem)
  | _ => rfl

/-! ### Reading -/

/-- The value of a leaf that holds a natural number below `limit`. -/
def naturalBelow? (limit : Nat) : Written → Option Nat
  | .number (some (.integer n)) => if 0 ≤ n ∧ n.toNat < limit then some n.toNat else none
  | _ => none

def textOf? : Written → Option String
  | .string s => s
  | _ => none

def itemsOf? : Written → Option (List Written)
  | .array items => some items
  | _ => none

/-- The spelling of a word: a text, or the key of an object whose one member says nothing. -/
def spellingOf? (depth : Nat) : Written → Option String
  | .string s => s
  | .object [(key, .null)] => if depth = 0 then none else key
  | _ => none

mutual
/-- Reads a value of a type from a document with at most `depth` nested containers. -/
def FieldType.read? : (type : FieldType) → Nat → Written → Option type.Value
  | .text, _, w => textOf? w
  | .flag, _, w =>
    match w with
    | .bool b => some b
    | _ => none
  | .natural32, _, w => (naturalBelow? UInt32.size w).map UInt32.ofNat
  | .natural64, _, w => (naturalBelow? UInt64.size w).map UInt64.ofNat
  | .time, _, w => (textOf? w).bind Instant.ofText?
  | .word v, depth, w => (spellingOf? depth w).bind v.read?
  | .optional type, depth, w =>
    match w with
    | .null => some none
    | w => (type.read? depth w).map some
  | .list type, depth, w =>
    if depth = 0 then none else (itemsOf? w).bind (·.mapM (type.read? (depth - 1)))
  | .record fields, depth, w =>
    if depth = 0 || fields.isCutShort w then none
    else (slots? fields.names w).bind (fields.read? (depth - 1))

/-- Reads a record from what was found for each of its fields. -/
def Fields.read? : (fields : Fields) → Nat → List (Option Written) → Option fields.Record
  | .nil, _, _ => some ()
  | .cons _ presence type rest, depth, found =>
    let value :=
      match found.head?.join with
      | some w => type.read? depth w
      | none => if presence = .required then none else some type.zero
    match value, rest.read? depth found.tail with
    | some v, some r => some (v, r)
    | _, _ => none
end

/-! ### Writing -/

mutual
def FieldType.write : (type : FieldType) → type.Value → Value
  | .text, s => .string s
  | .flag, b => .bool b
  | .natural32, n => .nat n.toNat
  | .natural64, n => .nat n.toNat
  | .time, t => .string (Instant.text t)
  | .word v, w => .string (v.spelling w)
  | .optional type, x =>
    match x with
    | none => .null
    | some a => type.write a
  | .list type, xs => .array (xs.map type.write)
  | .record fields, r => .object (fields.write r)

def Fields.write : (fields : Fields) → fields.Record → List (String × Value)
  | .nil, _ => []
  | .cons name _ type rest, r => (name, type.write r.1) :: rest.write r.2
end

/-- The members that say something: `null` and empty lists are left out. -/
def sparse (members : List (String × Value)) : List (String × Value) :=
  members.filter fun m =>
    match m.2 with
    | .null => false
    | .array [] => false
    | _ => true

end TerraformCloud.Schema
