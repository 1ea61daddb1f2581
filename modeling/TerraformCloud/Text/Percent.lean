/-
  TerraformCloud/Text/Percent.lean
  ================================
  **Percent-coding of bytes in URLs.**

  A byte that may not stand for itself is written `%` and two hexadecimal digits.
  Which bytes may stand for themselves depends on the place: inside one segment or
  one query value it is the unreserved characters only, elsewhere each part of a URL
  has its own set.  Reading undoes well-formed triples and leaves everything else.
-/
import TerraformCloud.Json.Text

namespace TerraformCloud.Percent

/-- The escaped form of a byte. -/
def escaped (b : UInt8) : List Char := ['%', upperHex (b.toNat / 16), upperHex (b.toNat % 16)]

/-- Writes bytes, those in the set `mustEscape` as triples.  The set has to contain
    every byte above `7F`, which is no character on its own. -/
def encodeBytes (mustEscape : UInt8 → Bool) (bytes : Bytes) : List Char :=
  bytes.flatMap (fun b => if mustEscape b then escaped b else [Char.ofNat b.toNat])

/-- Letters, digits and `-`, `_`, `.`, `~` never need an escape. -/
def isUnreserved (b : UInt8) : Bool :=
  (0x30 ≤ b && b ≤ 0x39) || (0x41 ≤ b && b ≤ 0x5A) || (0x61 ≤ b && b ≤ 0x7A) ||
    b = 0x2D || b = 0x5F || b = 0x2E || b = 0x7E

/-- Writes a text so that it can stand as one segment, key or value. -/
def encode (s : String) : String :=
  String.ofList (encodeBytes (fun b => !isUnreserved b) (Utf8.encode s))

@[match_pattern] abbrev percent : UInt8 := 0x25

/-- Turns every well-formed triple back into its byte. -/
def decodeBytes : Bytes → Bytes
  | [] => []
  | percent :: h :: l :: rest =>
    match hexValue? h, hexValue? l with
    | some x, some y => UInt8.ofNat (x * 16 + y) :: decodeBytes rest
    | _, _ => percent :: decodeBytes (h :: l :: rest)
  | b :: rest => b :: decodeBytes rest
termination_by bytes => bytes.length

/-- The text behind an escaped one, if its bytes spell one. -/
def decode? (s : String) : Option String := Utf8.decode? (decodeBytes (Utf8.encode s))

end TerraformCloud.Percent
