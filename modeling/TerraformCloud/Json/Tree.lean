/-
  TerraformCloud/Json/Tree.lean
  =============================
  **JSON documents, as written and as values.**

  One tree type serves two readings of a document.  `Written` is the document as its
  syntax alone determines it: members in their order, repeated keys included, with a
  leaf that says nothing (a string that is no text, a number beyond every double)
  kept as a hole, because a reader that skips it never looks.  `Value` is a document
  whose every leaf was looked at and whose objects have each key once.
-/
import TerraformCloud.Json.Number

namespace TerraformCloud.Json

/-- A JSON tree over string leaves `σ` and number leaves `ν`. -/
inductive Tree (σ ν : Type) where
  | null
  | bool (b : Bool)
  | number (n : ν)
  | string (s : σ)
  | array (items : List (Tree σ ν))
  | object (members : List (σ × Tree σ ν))
deriving Repr, Inhabited, BEq

/-- A document whose every leaf is known. -/
abbrev Value := Tree String Number

/-- A document as written; leaves that hold no text or no number are holes. -/
abbrev Written := Tree (Option String) (Option Number)

namespace Value

def int (n : Int) : Value := .number (.integer n)

def nat (n : Nat) : Value := int n

/-- A value that may be missing; `null` stands for nothing. -/
def opt {α : Type} (f : α → Value) : Option α → Value
  | none => .null
  | some a => f a

def get? (v : Value) (key : String) : Option Value :=
  match v with
  | .object members => (members.find? (fun m => m.1 = key)).map (·.2)
  | _ => none

mutual
/-- A value, as the document that writes it. -/
def written : Value → Written
  | .null => .null
  | .bool b => .bool b
  | .number n => .number (some n)
  | .string s => .string (some s)
  | .array items => .array (writtenItems items)
  | .object members => .object (writtenMembers members)

def writtenItems : List Value → List Written
  | [] => []
  | v :: rest => written v :: writtenItems rest

def writtenMembers : List (String × Value) → List (Option String × Written)
  | [] => []
  | (k, v) :: rest => (some k, written v) :: writtenMembers rest
end

/-! ### Keys in order -/

/-- Puts a member at the place of its key, over one that is there. -/
def insertMember (key : String) (v : Value) : List (String × Value) → List (String × Value)
  | [] => [(key, v)]
  | (k, w) :: rest =>
    if key < k then (key, v) :: (k, w) :: rest
    else if key = k then (key, v) :: rest
    else (k, w) :: insertMember key v rest

/-- The members in key order; of several with one key the last stays. -/
def orderMembers (members : List (String × Value)) : List (String × Value) :=
  members.foldl (fun acc m => insertMember m.1 m.2 acc) []

mutual
/-- The value with the members of every object in key order. -/
def ordered : Value → Value
  | .array items => .array (orderedItems items)
  | .object members => .object (orderMembers (orderedMembers members))
  | v => v

def orderedItems : List Value → List Value
  | [] => []
  | v :: rest => ordered v :: orderedItems rest

def orderedMembers : List (String × Value) → List (String × Value)
  | [] => []
  | (k, v) :: rest => (k, ordered v) :: orderedMembers rest
end

end Value

namespace Written

/-- How many containers may be nested in a document that is looked at. -/
def depthLimit : Nat := 127

mutual
/-- The value that a document holds, when no leaf is a hole and at most `depth`
    containers are nested.  A repeated key takes its last value. -/
def value? (depth : Nat) : Written → Option Value
  | .null => some .null
  | .bool b => some (.bool b)
  | .number n => n.map .number
  | .string s => s.map .string
  | .array items => if depth = 0 then none else (values? (depth - 1) items).map .array
  | .object members =>
    if depth = 0 then none
    else (memberValues? (depth - 1) members).map fun ms => .object (Value.orderMembers ms)

def values? (depth : Nat) : List Written → Option (List Value)
  | [] => some []
  | w :: rest =>
    match value? depth w, values? depth rest with
    | some v, some vs => some (v :: vs)
    | _, _ => none

def memberValues? (depth : Nat) : List (Option String × Written) → Option (List (String × Value))
  | [] => some []
  | (k, w) :: rest =>
    match k, value? depth w, memberValues? depth rest with
    | some k, some v, some vs => some ((k, v) :: vs)
    | _, _, _ => none
end

end Written
end TerraformCloud.Json
