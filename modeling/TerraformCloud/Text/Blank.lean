/-
  TerraformCloud/Text/Blank.lean
  ==============================
  **Characters that separate and say nothing.**

  The blanks are the characters with the white-space property: the controls from tab
  to carriage return, the space, the next-line control, and the spaces and line
  separators outside ASCII.
-/

namespace TerraformCloud

/-- Whether a character has the white-space property. -/
def isBlank (c : Char) : Bool :=
  let n := c.toNat
  (0x09 ≤ n && n ≤ 0x0D) || n = 0x20 || n = 0x85 || n = 0xA0 || n = 0x1680 ||
    (0x2000 ≤ n && n ≤ 0x200A) || n = 0x2028 || n = 0x2029 || n = 0x202F || n = 0x205F || n = 0x3000

/-- A text without the blanks at its front. -/
def trimFront (text : List Char) : List Char := text.dropWhile isBlank

/-- A text without the blanks at both ends. -/
def trimBlanks (text : List Char) : List Char := (trimFront (trimFront text).reverse).reverse

end TerraformCloud
