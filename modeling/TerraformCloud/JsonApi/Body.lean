/-
  TerraformCloud/JsonApi/Body.lean
  ================================
  **Bodies of requests.**

  A body is a resource document, or plain JSON where the service asks for it.  Which
  of the two is decided where the body is made, and the media type follows from it.
  A resource that says nothing about its attributes is written without them.
-/
import TerraformCloud.Error
import TerraformCloud.JsonApi.Resource
import TerraformCloud.Json.Printer

namespace TerraformCloud

open Json (Value)

/-- The two formats of a body. -/
inductive BodyFormat where
  | jsonApi
  | json
deriving DecidableEq, Repr

namespace BodyFormat

def mediaType : BodyFormat → String
  | jsonApi => "application/vnd.api+json"
  | json => "application/json"

end BodyFormat

/-- A body: its format and its document, with the members of objects in key order. -/
structure Body where
  format : BodyFormat
  payload : Value
deriving Repr

/-- A resource to be sent: it may have no id yet, and its attributes are any value. -/
structure Draft where
  type : String
  id : Option String
  attributes : Value
  relationships : Relationships
deriving Repr

namespace Draft

/-- A resource without id and relationships. -/
def ofAttributes (type : String) (members : List (String × Value)) : Draft :=
  ⟨type, none, .object (Schema.sparse members), .empty⟩

/-- The resource as it is known, to be sent back; an empty id is none. -/
def ofResource {α : Type} [Attributes α] (r : Resource α) : Draft :=
  ⟨Attributes.type α, if r.id.isEmpty then none else some r.id, Recorded.write r.attributes,
    r.relationships⟩

/-- The attributes as a member: `null` and `{}` are left out, and anything but an object
    is no set of attributes. -/
def attributesMember : Value → Except ApiError (List (String × Value))
  | .null => .ok []
  | .object [] => .ok []
  | .object members => .ok [("attributes", .object members)]
  | _ => .error .invalidRequestBody

/-- The document of the resource. -/
def write (d : Draft) : Except ApiError Value := do
  let attributes ← attributesMember d.attributes
  return .object <|
    ("type", .string d.type) :: (d.id.map fun id => ("id", (.string id : Value))).toList ++ attributes ++
      if d.relationships.isEmpty then [] else [("relationships", Relationships.write d.relationships)]

end Draft

namespace Body

/-- A document with the given primary data. -/
def ofData (data : Value) : Body := ⟨.jsonApi, Json.Value.ordered (.object [("data", data)])⟩

def resource (d : Draft) : Except ApiError Body := d.write.map ofData

def resources (ds : List Draft) : Except ApiError Body :=
  (ds.mapM Draft.write).map fun items => ofData (.array items)

def json (v : Value) : Body := ⟨.json, v.ordered⟩

def text (b : Body) : String := b.payload.compact

def bytes (b : Body) : Bytes := Utf8.encode b.text

end Body
end TerraformCloud
