/-
  TerraformCloud/JsonApi/Relationship.lean
  ========================================
  **How a resource refers to others.**

  A relationship has a cardinality: it points at nothing, at one resource, or at a
  list of resources.  The cardinality is part of what is said, so an empty list and
  nothing are different.
-/
import TerraformCloud.Keyed
import TerraformCloud.Schema.Document

namespace TerraformCloud

open Json (Value Written)

structure Identifier where
  type : String
  id : String
deriving DecidableEq, Repr

/-- What a relationship points at. -/
inductive Linkage where
  | nothing
  | one (target : Identifier)
  | many (targets : List Identifier)
deriving DecidableEq, Repr

/-- A relationship of a resource. -/
structure Relationship where
  data : Linkage
  links : Option Value
deriving Repr

abbrev Relationships := Keyed Relationship

namespace Relationship

def toOne (type id : String) : Relationship := ⟨.one ⟨type, id⟩, none⟩

def toMany (type : String) (ids : List String) : Relationship :=
  ⟨.many (ids.map fun id => ⟨type, id⟩), none⟩

def toNone : Relationship := ⟨.nothing, none⟩

def id? (r : Relationship) : Option String :=
  match r.data with
  | .one target => some target.id
  | _ => none

def ids (r : Relationship) : List String :=
  match r.data with
  | .nothing => []
  | .one target => [target.id]
  | .many targets => targets.map (·.id)

end Relationship

/-! ### Writing -/

def Identifier.write (i : Identifier) : Value :=
  .object [("type", .string i.type), ("id", .string i.id)]

def Linkage.write : Linkage → Value
  | .nothing => .null
  | .one target => target.write
  | .many targets => .array (targets.map Identifier.write)

def Relationship.write (r : Relationship) : Value :=
  .object (("data", r.data.write) ::
    match r.links with
    | none => []
    | some v => [("links", v)])

def Relationships.write (rs : Relationships) : Value :=
  .object (rs.entries.map fun e => (e.1, e.2.write))

/-! ### Reading -/

/-- Reads an object or an array with these fields in a document that has at least one
    more level of nesting. -/
def slotsWithin? (names : List String) (depth : Nat) (w : Written) : Option (List (Option Written)) :=
  if depth = 0 then none else Schema.slots? names w

/-- Reads a value or `null`; what is missing counts as `null`. -/
def nullable {β : Type} (read? : Written → Option β) : Option Written → Option (Option β)
  | none => some none
  | some .null => some none
  | some w => (read? w).map some

def Identifier.read? (depth : Nat) (w : Written) : Option Identifier :=
  match slotsWithin? ["type", "id"] depth w with
  | some [some type, some id] =>
    match Schema.textOf? type, Schema.textOf? id with
    | some t, some i => some ⟨t, i⟩
    | _, _ => none
  | _ => none

/-- Reads what is pointed at, without its leaves: a list of identifiers where it is
    one, else a single identifier (which may itself be an array), else `null`. -/
def Linkage.readShape? (depth : Nat) (w : Written) : Option Linkage :=
  let list := (Schema.itemsOf? w).bind (·.mapM (Identifier.read? (depth - 1)))
  match list, Identifier.read? depth w, w with
  | some targets, _, _ => some (.many targets)
  | none, some target, _ => some (.one target)
  | none, none, .null => some .nothing
  | none, none, _ => none

/-- Reads what is pointed at.  Every leaf below it has to be a value, also those of
    members that are passed over. -/
def Linkage.read? (depth : Nat) (w : Written) : Option Linkage :=
  match w.value? depth with
  | some _ => Linkage.readShape? depth w
  | none => none

/-- Reads a relationship.  Without `data` it points at nothing. -/
def Relationship.read? (depth : Nat) (w : Written) : Option Relationship :=
  match slotsWithin? ["data", "links"] depth w with
  | some [data, links] =>
    match data.elim (some Linkage.nothing) (Linkage.read? (depth - 1)),
        nullable (Written.value? (depth - 1)) links with
    | some d, some l => some ⟨d, l⟩
    | _, _ => none
  | _ => none

/-- Reads the members of an object as relationships. -/
def Relationships.readMembers? (depth : Nat) :
    List (Option String × Written) → Option (List (String × Relationship))
  | [] => some []
  | (key, w) :: rest =>
    match key, Relationship.read? depth w, readMembers? depth rest with
    | some k, some r, some rs => some ((k, r) :: rs)
    | _, _, _ => none

/-- Reads relationships; of several with one name the last one counts. -/
def Relationships.read? (depth : Nat) : Written → Option Relationships
  | .object members =>
    if depth = 0 then none else (readMembers? (depth - 1) members).map Keyed.ofList
  | _ => none

end TerraformCloud
