/-
  TerraformCloud/JsonApi/Document.lean
  ====================================
  **Documents that the service answers with.**

  A document has one primary resource and perhaps others sent along, or it is a list
  with a position.  A list is looked at as a whole before its items are read: its
  `data` has to be an array, also when the items are of no use.
-/
import TerraformCloud.Error
import TerraformCloud.JsonApi.Page
import TerraformCloud.JsonApi.Resource

namespace TerraformCloud

open Json (Value Written)

/-- A primary resource with the resources sent along. -/
structure Document (α : Type) where
  data : Resource α
  included : List Included
deriving Repr

namespace Document

variable {α : Type}

/-- The first resource sent along with this type and id. -/
def find? (d : Document α) (type id : String) : Option Included :=
  d.included.find? (fun r => r.type = type ∧ r.id = id)

/-- The resource with this type and id, read as a `β`. -/
def lookup? (β : Type) [Recorded β] (d : Document α) (type id : String) :
    Option (Except ApiError (Resource β)) :=
  (d.find? type id).map fun r =>
    match r.resource? β with
    | some x => .ok x
    | none => .error .malformed

/-- What was found for `included`: nothing, where it is missing. -/
def readIncluded? (depth : Nat) : Option Written → Option (List Included)
  | none => some []
  | some w =>
    if depth = 0 then none
    else (Schema.itemsOf? w).bind (·.mapM (Included.read? (depth - 1)))

def read? [Recorded α] (depth : Nat) (w : Written) : Option (Document α) :=
  match slotsWithin? ["data", "included"] depth w with
  | some [some data, included] =>
    match Resource.read? (α := α) (depth - 1) data, readIncluded? (depth - 1) included with
    | some d, some i => some ⟨d, i⟩
    | _, _ => none
  | _ => none

end Document

/-! ### Bytes -/

/-- Reads bytes as a document. -/
def ofBytes {β : Type} (read? : Nat → Written → Option β) (bytes : Bytes) : Except ApiError β :=
  match (Json.parse? bytes).bind (read? Written.depthLimit) with
  | some x => .ok x
  | none => .error .malformed

/-- The document that bytes hold. -/
def decodeDocument (α : Type) [Recorded α] (bytes : Bytes) : Except ApiError (Document α) :=
  ofBytes Document.read? bytes

/-- The primary resource of the document that bytes hold. -/
def decodeOne (α : Type) [Recorded α] (bytes : Bytes) : Except ApiError (Resource α) :=
  (decodeDocument α bytes).map Document.data

/-! ### Lists -/

/-- A list document before its items are read. -/
structure ListDocument (π : Type) where
  data : Value
  pagination : Option π

namespace ListDocument

variable {π : Type} [Recorded π]

/-- The position inside `meta`. -/
def readMeta? (depth : Nat) (w : Written) : Option (Option π) :=
  match slotsWithin? ["pagination"] depth w with
  | some [pagination] => nullable (Recorded.read? π (depth - 1)) pagination
  | _ => none

def read? (depth : Nat) (w : Written) : Option (ListDocument π) :=
  match slotsWithin? ["data", "meta"] depth w with
  | some [data, meta_] =>
    match data.elim (some (.null : Value)) (Written.value? (depth - 1)),
        nullable (readMeta? (depth - 1)) meta_ with
    | some d, some p => some ⟨d, p.join⟩
    | _, _ => none
  | _ => none

def items? (d : ListDocument π) : Option (List Value) :=
  match d.data with
  | .array items => some items
  | _ => none

end ListDocument

/-- The page that bytes hold.  Without a position its fields are at their zeros. -/
def decodeList (α π : Type) [Recorded α] [Recorded π] (bytes : Bytes) :
    Except ApiError (Page (Resource α) π) := do
  let raw ← ofBytes (ListDocument.read? (π := π)) bytes
  match raw.items? with
  | none => .error .invalidListDocument
  | some items =>
    match items.mapM (fun v => Resource.read? (α := α) Written.depthLimit v.written) with
    | none => .error .malformed
    | some resources => .ok ⟨resources, raw.pagination.getD (Recorded.zero π)⟩

end TerraformCloud
