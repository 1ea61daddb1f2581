/-
  TerraformCloud/Text/Split.lean
  ==============================
  **Cutting a text at a separator or behind a mark.**
-/

namespace TerraformCloud

/-- The pieces of a text between occurrences of a separator, at least one. -/
def splitChars (sep : Char) : List Char → List (List Char)
  | [] => [[]]
  | c :: rest =>
    if c = sep then [] :: splitChars sep rest
    else
      match splitChars sep rest with
      | [] => [[c]]
      | piece :: pieces => (c :: piece) :: pieces

/-- A text up to the end of the first occurrence of a mark; the whole text without one. -/
def upThrough (mark : List Char) : List Char → List Char
  | [] => []
  | c :: rest => if mark.isPrefixOf (c :: rest) then mark else c :: upThrough mark rest

end TerraformCloud
