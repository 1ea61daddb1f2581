/-
  TerraformCloud/JsonApi/Resource.lean
  ====================================
  **Resources: identity, attributes, relationships.**
-/
import TerraformCloud.JsonApi.Relationship
import TerraformCloud.Schema.Recorded

namespace TerraformCloud

open Json (Value Written)

/-- A resource whose attributes are an `α`. -/
structure Resource (α : Type) where
  id : String
  attributes : α
  relationships : Relationships
deriving Repr

namespace Resource

variable {α : Type}

/-- The id of the one resource that a relationship points at. -/
def relatedId? (r : Resource α) (name : String) : Option String :=
  (r.relationships.find? name).bind Relationship.id?

def relatedIds (r : Resource α) (name : String) : List String :=
  ((r.relationships.find? name).map Relationship.ids).getD []

variable [Recorded α]

/-- The resource as a person is shown it: without type, and without relationships
    when there are none. -/
def write (r : Resource α) : Value :=
  .object <|
    [("id", .string r.id), ("attributes", Recorded.write r.attributes)] ++
      if r.relationships.isEmpty then [] else [("relationships", Relationships.write r.relationships)]

/-- What was found for `relationships`: none, where it is missing. -/
def readRelationships? (depth : Nat) (found : Option Written) : Option Relationships :=
  found.elim (some .empty) (Relationships.read? depth)

/-- Reads a resource from a document with at most `depth` nested containers. -/
def read? (depth : Nat) (w : Written) : Option (Resource α) :=
  match slotsWithin? ["id", "attributes", "relationships"] depth w with
  | some [some id, some attributes, relationships] =>
    match Schema.textOf? id, Recorded.read? α (depth - 1) attributes,
        readRelationships? (depth - 1) relationships with
    | some i, some a, some rs => some ⟨i, a, rs⟩
    | _, _, _ => none
  | _ => none

end Resource

/-- A resource of any type, as it is sent along with others. -/
structure Included where
  type : String
  id : String
  attributes : Value
  relationships : Relationships
deriving Repr

namespace Included

def read? (depth : Nat) (w : Written) : Option Included :=
  match slotsWithin? ["type", "id", "attributes", "relationships"] depth w with
  | some [some type, some id, attributes, relationships] =>
    match Schema.textOf? type, Schema.textOf? id,
        attributes.elim (some (.null : Value)) (Written.value? (depth - 1)),
        Resource.readRelationships? (depth - 1) relationships with
    | some t, some i, some a, some rs => some ⟨t, i, a, rs⟩
    | _, _, _, _ => none
  | _ => none

/-- The resource with its attributes read as an `α`. -/
def resource? (α : Type) [Recorded α] (i : Included) : Option (Resource α) :=
  (Recorded.read? α Written.depthLimit i.attributes.written).map fun a => ⟨i.id, a, i.relationships⟩

end Included
end TerraformCloud
