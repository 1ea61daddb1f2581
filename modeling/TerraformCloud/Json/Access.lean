/-
  TerraformCloud/Json/Access.lean
  ===============================
  **Looking into values.**

  Each function takes one look and gives nothing when the value is of another form, so
  that a missing member, `null` and a member of the wrong form are told apart only by
  those who ask for the value itself.
-/
import TerraformCloud.Json.Tree

namespace TerraformCloud.Json.Value

/-! ### One value -/

def text? : Value → Option String
  | .string s => some s
  | _ => none

def flag? : Value → Option Bool
  | .bool b => some b
  | _ => none

/-- A number without a sign that is written as an integer. -/
def natural? : Value → Option Nat
  | .number (.integer n) => if 0 ≤ n then some n.toNat else none
  | _ => none

/-- A natural number of 32 bits. -/
def word32? (v : Value) : Option UInt32 :=
  v.natural?.bind fun n => if n < UInt32.size then some (UInt32.ofNat n) else none

def items? : Value → Option (List Value)
  | .array items => some items
  | _ => none

/-- The texts among the items of an array. -/
def texts? (v : Value) : Option (List String) := v.items?.map (·.filterMap text?)

def pair? : Value → Option (String × String)
  | .array [.string a, .string b] => some (a, b)
  | _ => none

/-! ### Members -/

/-- The value of a member, `null` when it is missing. -/
def field (v : Value) (key : String) : Value := (v.get? key).getD .null

def textAt? (v : Value) (key : String) : Option String := (v.field key).text?

def textAt (v : Value) (key : String) : String := (v.textAt? key).getD ""

def flagAt? (v : Value) (key : String) : Option Bool := (v.field key).flag?

def flagAt (v : Value) (key : String) : Bool := (v.flagAt? key).getD false

def naturalAt? (v : Value) (key : String) : Option Nat := (v.field key).natural?

def word32At? (v : Value) (key : String) : Option UInt32 := (v.field key).word32?

def itemsAt (v : Value) (key : String) : List Value := ((v.field key).items?).getD []

def textsAt? (v : Value) (key : String) : Option (List String) := (v.field key).texts?

def textsAt (v : Value) (key : String) : List String := (v.textsAt? key).getD []

def pairsAt (v : Value) (key : String) : List (String × String) := (v.itemsAt key).filterMap pair?

end TerraformCloud.Json.Value
