/-
  TerraformCloud/Json/Printer.lean
  ================================
  **Writing a JSON document.**

  The compact form has no blanks at all and is what travels; the indented form puts
  each item and member on its own line, two blanks deeper than its container, and is
  what a person reads.  Empty containers are written `[]` and `{}` in both.
-/
import TerraformCloud.Json.Text
import TerraformCloud.Json.Tree

namespace TerraformCloud.Json.Value

/-! ### Compact -/

mutual
/-- The characters of a value, without blanks. -/
def compactChars : Value → List Char
  | .null => "null".toList
  | .bool b => (if b then "true" else "false").toList
  | .number n => n.text
  | .string s => quoted s
  | .array items => '[' :: compactItems items ++ [']']
  | .object members => '\x7b' :: compactMembers members ++ ['\x7d']

def compactItems : List Value → List Char
  | [] => []
  | [v] => compactChars v
  | v :: rest => compactChars v ++ ',' :: compactItems rest

def compactMembers : List (String × Value) → List Char
  | [] => []
  | [(k, v)] => quoted k ++ ':' :: compactChars v
  | (k, v) :: rest => quoted k ++ ':' :: compactChars v ++ ',' :: compactMembers rest
end

def compact (v : Value) : String := String.ofList (compactChars v)

/-! ### Indented -/

/-- A new line, indented by two blanks per level. -/
def newline (level : Nat) : List Char := '\n' :: List.replicate (2 * level) ' '

mutual
/-- The characters of a value that starts at an indentation level. -/
def indentedChars (level : Nat) : Value → List Char
  | .array items =>
    if items.isEmpty then ['[', ']']
    else '[' :: indentedItems (level + 1) items ++ newline level ++ [']']
  | .object members =>
    if members.isEmpty then ['\x7b', '\x7d']
    else '\x7b' :: indentedMembers (level + 1) members ++ newline level ++ ['\x7d']
  | v => compactChars v

def indentedItems (level : Nat) : List Value → List Char
  | [] => []
  | [v] => newline level ++ indentedChars level v
  | v :: rest => newline level ++ indentedChars level v ++ ',' :: indentedItems level rest

def indentedMembers (level : Nat) : List (String × Value) → List Char
  | [] => []
  | [(k, v)] => newline level ++ quoted k ++ ':' :: ' ' :: indentedChars level v
  | (k, v) :: rest =>
    newline level ++ quoted k ++ ':' :: ' ' :: indentedChars level v ++ ',' ::
      indentedMembers level rest
end

def indented (v : Value) : String := String.ofList (indentedChars 0 v)

end TerraformCloud.Json.Value
