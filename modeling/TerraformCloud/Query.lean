/-
  TerraformCloud/Query.lean
  =========================
  **Query parameters of list and read requests.**

  Options are flattened into parameters: a key with the texts of its values in the
  order they were given.  Encoding writes the keys in order.  A key that the service
  reads as a list (`include`, and every filter) sends its values joined by commas in
  one pair; any other key sends one pair per value.
-/
import TerraformCloud.Json.Printer
import TerraformCloud.Keyed
import TerraformCloud.Text.Percent

namespace TerraformCloud

/-- Query parameters: the values of each key, in the order they were added. -/
abbrev Query := Keyed (List String)

/-- Why options cannot be written as a query. -/
inductive QueryError where
  /-- The options as a whole are no object. -/
  | notAnObject (options : Json.Value)
  /-- A field holds an object, or a list that holds more than scalars. -/
  | notScalar (field : String)
deriving Repr

namespace QueryError

def message : QueryError → String
  | .notAnObject options => "options must serialize to an object, got " ++ options.compact
  | .notScalar field => "field '" ++ field ++ "' must be a scalar or a list of scalars"

end QueryError

namespace Query

/-- Adds a value behind those that the key has. -/
def append (q : Query) (key value : String) : Query :=
  q.alter key (fun old => old.getD [] ++ [value])

/-- Adds a list of values behind those that the key has. -/
def appendAll (q : Query) (key : String) (values : List String) : Query :=
  q.alter key (fun old => old.getD [] ++ values)

/-- Adds every parameter of `other` behind those of `q`. -/
def extend (q other : Query) : Query :=
  other.entries.foldl (fun acc e => acc.appendAll e.1 e.2) q

/-! ### Encoding -/

/-- The key that asks for related resources to be sent along. -/
def includeKey : String := "include"

/-- Whether `part` occurs in `text`. -/
def occursIn (part : List Char) : List Char → Bool
  | [] => part.isEmpty
  | c :: rest => part.isPrefixOf (c :: rest) || occursIn part rest

/-- Whether several values of a key are sent as one, joined by commas. -/
def isListKey (key : String) : Bool :=
  key = includeKey || occursIn "filter[".toList key.toList

/-- One `key=value` pair, both sides escaped. -/
def pair (key value : String) : String := Percent.encode key ++ "=" ++ Percent.encode value

/-- The pairs that one key sends. -/
def pairs (key : String) (values : List String) : List String :=
  if 1 < values.length ∧ isListKey key then [pair key (",".intercalate values)]
  else values.map (pair key)

def encode (q : Query) : String :=
  "&".intercalate (q.entries.flatMap (fun e => pairs e.1 e.2))

/-! ### Flattening options -/

/-- The text of a scalar field, nothing for `null`. -/
def scalar (field : String) : Json.Value → Except QueryError (Option String)
  | .null => .ok none
  | .string s => .ok (some s)
  | .bool b => .ok (some (if b then "true" else "false"))
  | .number n => .ok (some (String.ofList n.text))
  | .array _ => .error (.notScalar field)
  | .object _ => .error (.notScalar field)

/-- The texts of a field: those of a scalar, or of each item of a list. -/
def fieldValues (field : String) : Json.Value → Except QueryError (List String)
  | .array items => do return (← items.mapM (scalar field)).filterMap id
  | v => do return (← scalar field v).toList

/-- The parameters that options stand for.  Fields are read in key order. -/
def ofOptions : Json.Value → Except QueryError Query
  | .null => .ok .empty
  | .object members =>
    (Json.Value.orderMembers members).foldlM
      (fun q m => do return (← fieldValues m.1 m.2).foldl (fun q v => q.append m.1 v) q) .empty
  | v => .error (.notAnObject v)

end Query
end TerraformCloud
