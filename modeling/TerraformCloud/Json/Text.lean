/-
  TerraformCloud/Json/Text.lean
  =============================
  **Strings of a JSON document.**

  A string is first delimited and then decoded.  Delimiting only checks the form
  (no raw control character, every backslash starts a known escape); decoding turns
  escapes and UTF-8 into characters and fails on a surrogate without its partner or
  on ill-formed bytes.  A reader that skips a string needs the first step only.
-/
import TerraformCloud.Text.Utf8

namespace TerraformCloud

def asciiByte (c : Char) : UInt8 := UInt8.ofNat c.toNat

def isDigitByte (b : UInt8) : Bool := 0x30 ≤ b && b ≤ 0x39

/-- The value of a hexadecimal digit, in either case. -/
def hexValue? (b : UInt8) : Option Nat :=
  if 0x30 ≤ b ∧ b ≤ 0x39 then some (b.toNat - 0x30)
  else if 0x41 ≤ b ∧ b ≤ 0x46 then some (b.toNat - 0x41 + 10)
  else if 0x61 ≤ b ∧ b ≤ 0x66 then some (b.toNat - 0x61 + 10)
  else none

def upperHex (n : Nat) : Char :=
  if n < 10 then Char.ofNat (0x30 + n) else Char.ofNat (0x41 + (n - 10))

def lowerHex (n : Nat) : Char :=
  if n < 10 then Char.ofNat (0x30 + n) else Char.ofNat (0x61 + (n - 10))

namespace Json

@[match_pattern] abbrev quote : UInt8 := 0x22
@[match_pattern] abbrev backslash : UInt8 := 0x5C
@[match_pattern] abbrev letterU : UInt8 := 0x75

/-- What a one-letter escape stands for. -/
def escape? (b : UInt8) : Option Char :=
  if b = quote then some '"'
  else if b = backslash then some '\\'
  else if b = asciiByte '/' then some '/'
  else if b = asciiByte 'b' then some '\x08'
  else if b = asciiByte 'f' then some '\x0c'
  else if b = asciiByte 'n' then some '\n'
  else if b = asciiByte 'r' then some '\r'
  else if b = asciiByte 't' then some '\t'
  else none

/-- The number that four hexadecimal digits spell. -/
def hex4? (a b c d : UInt8) : Option Nat :=
  match hexValue? a, hexValue? b, hexValue? c, hexValue? d with
  | some w, some x, some y, some z => some (((w * 16 + x) * 16 + y) * 16 + z)
  | _, _, _, _ => none

/-- The contents of a string whose opening quote has been read, and what follows its
    closing quote. -/
def delimit? : Bytes → Option (Bytes × Bytes)
  | [] => none
  | quote :: rest => some ([], rest)
  | backslash :: letterU :: a :: b :: c :: d :: rest =>
    if (hex4? a b c d).isSome then
      (delimit? rest).map fun (s, r) => (backslash :: letterU :: a :: b :: c :: d :: s, r)
    else none
  | backslash :: e :: rest =>
    if (escape? e).isSome then (delimit? rest).map fun (s, r) => (backslash :: e :: s, r) else none
  | b :: rest => if b < 0x20 then none else (delimit? rest).map fun (s, r) => (b :: s, r)

/-- First halves of a surrogate pair. -/
def isHighSurrogate (n : Nat) : Bool := 0xD800 ≤ n && n ≤ 0xDBFF

/-- Second halves of a surrogate pair. -/
def isLowSurrogate (n : Nat) : Bool := 0xDC00 ≤ n && n ≤ 0xDFFF

/-- The characters of delimited contents. -/
def unescape? : Bytes → Option (List Char)
  | [] => some []
  | b :: rest =>
    if b = backslash then
      match rest with
      | letterU :: p :: q :: r :: s :: more =>
        match hex4? p q r s with
        | none => none
        | some n =>
          if isHighSurrogate n then
            match more with
            | backslash :: letterU :: p' :: q' :: r' :: s' :: more' =>
              match hex4? p' q' r' s' with
              | none => none
              | some low =>
                if isLowSurrogate low then
                  (unescape? more').map
                    (Char.ofNat (0x10000 + (n - 0xD800) * 0x400 + (low - 0xDC00)) :: ·)
                else none
            | _ => none
          else if isLowSurrogate n then none
          else (unescape? more).map (Char.ofNat n :: ·)
      | e :: more =>
        match escape? e with
        | none => none
        | some c => (unescape? more).map (c :: ·)
      | [] => none
    else
      match _h : Utf8.next b rest with
      | (.char c, r) => (unescape? r).map (c :: ·)
      | _ => none
termination_by bytes => bytes.length
decreasing_by
  · simp only [List.length_cons]; omega
  · simp only [List.length_cons]; omega
  · simp only [List.length_cons]; omega
  · have h := Utf8.next_length_le b rest
    rw [_h] at h
    exact Nat.lt_succ_of_le h

/-- The text of delimited contents. -/
def text? (contents : Bytes) : Option String := (unescape? contents).map String.ofList

/-- A character inside a written string: quote, backslash and control characters are
    escaped, all else stands for itself. -/
def escapeChar (c : Char) : List Char :=
  if c = '"' then ['\\', '"']
  else if c = '\\' then ['\\', '\\']
  else if c = '\x08' then ['\\', 'b']
  else if c = '\x0c' then ['\\', 'f']
  else if c = '\n' then ['\\', 'n']
  else if c = '\r' then ['\\', 'r']
  else if c = '\t' then ['\\', 't']
  else if c.toNat < 0x20 then
    ['\\', 'u', '0', '0', lowerHex (c.toNat / 16), lowerHex (c.toNat % 16)]
  else [c]

def quoted (s : String) : List Char := '"' :: s.toList.flatMap escapeChar ++ ['"']

end Json
end TerraformCloud
