/-
  TerraformCloud/Http/Header.lean
  ===============================
  **Header fields of requests and responses.**

  A field name is a token in lower case, so that names compare without regard to
  case.  What the client sends is a map from names to values; what a peer sends is a
  list, in which the first of several fields with one name counts.
-/
import TerraformCloud.Keyed
import TerraformCloud.Text.Utf8

namespace TerraformCloud.Http

/-- Headers to be sent: one value per name. -/
abbrev Headers := Keyed String

/-- Headers received, in the order they came. -/
abbrev Fields := List (String × String)

/-- Why a header cannot be set. -/
inductive HeaderError where
  /-- The name is no token. -/
  | badName (name : String)
  /-- The value has a control character. -/
  | badValue (name : String)
  /-- The token of the client has a control character. -/
  | badToken
deriving DecidableEq, Repr

namespace HeaderError

def message : HeaderError → String
  | .badName name => name ++ ": invalid HTTP header name"
  | .badValue name => name ++ ": failed to parse header value"
  | .badToken => "authorization token"

end HeaderError

/-- Characters of a token: letters, numerals and some marks. -/
def isTokenChar (c : Char) : Bool := c.isAlphanum || "!#$%&'*+-.^_`|~".toList.contains c

/-- The longest name that a field may have. -/
def longestName : Nat := 65535

/-- A field name in lower case, if the text is a token. -/
def fieldName? (text : String) : Option String :=
  let cs := text.toList
  if cs.isEmpty || longestName < cs.length || !cs.all isTokenChar then none
  else some (String.ofList (cs.map Char.toLower))

/-- Whether a text can be sent as a value: it has no control character but tabs. -/
def isFieldValue (text : String) : Bool :=
  text.toList.all (fun c => (0x20 ≤ c.toNat && c.toNat ≠ 0x7F) || c = '\t')

/-- Whether a value is plain ASCII text, which is the only kind that is looked into. -/
def isPlainValue (text : String) : Bool :=
  text.toList.all (fun c => (0x20 ≤ c.toNat && c.toNat < 0x7F) || c = '\t')

/-- Sets a header by its written name. -/
def setHeader (headers : Headers) (name value : String) : Except HeaderError Headers :=
  match fieldName? name with
  | none => .error (.badName name)
  | some field => if isFieldValue value then .ok (headers.insert field value) else .error (.badValue field)

/-- The plain value of the first field with a name (in lower case). -/
def plainValue? (fields : Fields) (name : String) : Option String :=
  match fields.find? (fun f => f.1.toLower = name) with
  | some (_, value) => if isPlainValue value then some value else none
  | none => none

end TerraformCloud.Http
