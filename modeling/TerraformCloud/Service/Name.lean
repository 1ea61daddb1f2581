/-
  TerraformCloud/Service/Name.lean
  ================================
  **Which texts name things.**

  An identifier consists of ASCII letters, digits, `-`, `_` and `.`, so it needs no
  escape in a URL.  Some names of people's own choice only have to be there.
-/
import TerraformCloud.Error

namespace TerraformCloud

def isIdentifierChar (c : Char) : Bool := c.isAlphanum || c = '-' || c = '_' || c = '.'

def isIdentifier (s : String) : Bool := !s.isEmpty && s.toList.all isIdentifierChar

/-- Whether there is a text, and not an empty one. -/
def isPresent : Option String → Bool
  | none => false
  | some s => !s.isEmpty

/-- Refuses with a cause unless a condition holds. -/
def require (cause : Rejection) (condition : Bool) : Except ApiError Unit :=
  if condition then .ok () else .error (.rejected cause)

end TerraformCloud
