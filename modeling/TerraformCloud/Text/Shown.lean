/-
  TerraformCloud/Text/Shown.lean
  ==============================
  **Values as they are shown in a message or a log.**

  A text is shown between quotes, so that every character can be told: quotes,
  backslashes and controls are escaped, and so is everything that has no shape of its
  own (marks that combine with the character before them, format characters, private
  and unassigned code points at the edges of the planes).
-/
import TerraformCloud.Json.Text

namespace TerraformCloud

/-- Ranges of characters without a shape of their own. -/
def shapelessRanges : List (Nat × Nat) :=
  [(0x00, 0x1F), (0x7F, 0xA0), (0xAD, 0xAD), (0x300, 0x36F), (0x483, 0x489), (0x591, 0x5BD),
   (0x600, 0x605), (0x610, 0x61A), (0x64B, 0x65F), (0x1680, 0x1680), (0x180B, 0x180F),
   (0x1AB0, 0x1AFF), (0x1DC0, 0x1DFF), (0x2000, 0x200F), (0x2028, 0x202F), (0x205F, 0x206F),
   (0x20D0, 0x20F0), (0x3000, 0x3000), (0x302A, 0x302F), (0x3099, 0x309A), (0xD800, 0xF8FF),
   (0xFE00, 0xFE0F), (0xFE20, 0xFE2F), (0xFEFF, 0xFEFF), (0xFF9E, 0xFF9F), (0xFFF0, 0xFFFB),
   (0xFFFE, 0xFFFF), (0xE0000, 0x10FFFF)]

def isShapeless (c : Char) : Bool := shapelessRanges.any fun (lo, hi) => lo ≤ c.toNat && c.toNat ≤ hi

/-- A character inside a shown text. -/
def shownChar (c : Char) : List Char :=
  if c = '"' then ['\\', '"']
  else if c = '\\' then ['\\', '\\']
  else if c = '\t' then ['\\', 't']
  else if c = '\n' then ['\\', 'n']
  else if c = '\r' then ['\\', 'r']
  else if c = '\x00' then ['\\', '0']
  else if isShapeless c ∧ c ≠ ' ' then
    ['\\', 'u', '\x7b'] ++ Nat.toDigits 16 c.toNat ++ ['\x7d']
  else [c]

def shownText (s : String) : String :=
  String.ofList ('"' :: s.toList.flatMap shownChar ++ ['"'])

def shownFlag (b : Bool) : String := if b then "true" else "false"

/-- A structure by some of its fields; the dots stand for the others. -/
def shownPart (name : String) (fields : List (String × String)) : String :=
  name ++ " \x7b " ++ String.join (fields.map fun f => f.1 ++ ": " ++ f.2 ++ ", ") ++ ".. \x7d"

end TerraformCloud
