/-
  TerraformCloud/Text/Hex.lean
  ============================
  **Numbers and bytes in base sixteen.**
-/
import TerraformCloud.Json.Text

namespace TerraformCloud.Hex

/-- The bytes that pairs of digits stand for, up to the first pair that is none. -/
def bytes : List Char → Bytes
  | h :: l :: rest =>
    match hexValue? (asciiByte h), hexValue? (asciiByte l) with
    | some x, some y => UInt8.ofNat (x * 16 + y) :: bytes rest
    | _, _ => []
  | _ => []

/-- The lowest `width` digits of a number, the highest of them first. -/
def digits : Nat → Nat → List Char
  | 0, _ => []
  | width + 1, n => digits width (n / 16) ++ [lowerHex (n % 16)]

end TerraformCloud.Hex
