/-
  TerraformCloud/Schema/Recorded.lean
  ===================================
  **Structures that stand for records.**

  A structure with named fields is what programs work with, a record is what is read
  and written.  `Recorded` relates the two and says that neither holds more than the
  other, so a law about all records is a law about every such structure.
-/
import TerraformCloud.Schema.Document

namespace TerraformCloud

open Json (Value Written)

/-- A structure in one-to-one correspondence with the records over some fields. -/
class Recorded (α : Type) where
  fields : Schema.Fields
  record : α → fields.Record
  ofRecord : fields.Record → α
  ofRecord_record : ∀ a, ofRecord (record a) = a
  record_ofRecord : ∀ r, record (ofRecord r) = r

namespace Recorded

variable {α : Type} [Recorded α]

/-- Lists of structures and lists of records correspond, too. -/
theorem map_ofRecord_map_record (l : List α) : (l.map record).map ofRecord = l :=
  List.map_map.trans (List.map_id'' ofRecord_record l)

theorem map_record_map_ofRecord (l : List (fields α).Record) : (l.map ofRecord).map record = l :=
  List.map_map.trans (List.map_id'' record_ofRecord l)

/-- The structure whose every field is missing. -/
def zero (α : Type) [Recorded α] : α := ofRecord (fields α).zero

/-- Reads a structure from a document with at most `depth` nested containers. -/
def read? (α : Type) [Recorded α] (depth : Nat) (w : Written) : Option α :=
  ((Schema.FieldType.record (fields α)).read? depth w).map ofRecord

/-- The members that a structure is written with. -/
def members (a : α) : List (String × Value) := (fields α).write (record a)

def write (a : α) : Value := .object (members a)

end Recorded

/-- What the resources of one kind say about themselves. -/
class Attributes (α : Type) extends Recorded α where
  /-- The name of the kind in documents. -/
  type : String

end TerraformCloud
