/-
  TerraformCloud/Url/Host.lean
  ============================
  **Reading the host of a URL.**

  The host of a special scheme is an address in brackets, an address in dotted
  numbers, or a domain name.  A name is percent-decoded, put into lower case, and
  each label with characters outside ASCII is spelled in ASCII.  A name whose last
  label is a number has to be an address.
-/
import TerraformCloud.Number.DecimalText
import TerraformCloud.Text.Split
import TerraformCloud.Url.Basic
import TerraformCloud.Url.Label

namespace TerraformCloud

namespace Host

/-! ### Names -/

/-- Lower case of the letters of the Latin, Greek and Cyrillic alphabets; the wide
    forms of ASCII become ASCII.  Other characters stand for themselves. -/
def foldLetter (c : Char) : Char :=
  let n := c.toNat
  let even (lo hi : Nat) : Bool := lo ≤ n && n ≤ hi && n % 2 = 0
  let odd (lo hi : Nat) : Bool := lo ≤ n && n ≤ hi && n % 2 = 1
  if n < 0x80 then c.toLower
  else if (0xC0 ≤ n ∧ n ≤ 0xDE ∧ n ≠ 0xD7) ∨ (0x391 ≤ n ∧ n ≤ 0x3AB) ∨ (0x410 ≤ n ∧ n ≤ 0x42F) then
    Char.ofNat (n + 32)
  else if 0x400 ≤ n ∧ n ≤ 0x40F then Char.ofNat (n + 80)
  else if even 0x100 0x136 || odd 0x139 0x147 || even 0x14A 0x176 || odd 0x179 0x17D ||
      even 0x460 0x480 || even 0x48A 0x4BE || even 0x4D0 0x52E || even 0x1E00 0x1E94 ||
      even 0x1EA0 0x1EFE then Char.ofNat (n + 1)
  else if 0xFF01 ≤ n ∧ n ≤ 0xFF5E then (Char.ofNat (n - 0xFEE0)).toLower
  else if n = 0x3002 ∨ n = 0xFF0E ∨ n = 0xFF61 then '.'
  else c

/-- Characters that leave no trace in a name. -/
def isIgnored (c : Char) : Bool :=
  let n := c.toNat
  n = 0xAD || n = 0x34F || n = 0x200B || n = 0x2060 || n = 0x2064 || n = 0xFEFF ||
    (0x180B ≤ n && n ≤ 0x180D) || (0xFE00 ≤ n && n ≤ 0xFE0F)

/-- Characters that no name contains: controls, spaces, joiners and separators outside
    ASCII, and code points reserved from text. -/
def isDisallowed (c : Char) : Bool :=
  let n := c.toNat
  (0x80 ≤ n && n ≤ 0xA0) || (0x2000 ≤ n && n ≤ 0x200F) || (0x2028 ≤ n && n ≤ 0x202F) ||
    n = 0x3000 || (0xE000 ≤ n && n ≤ 0xF8FF) || (0xFFF9 ≤ n && n ≤ 0xFFFF) || 0xF0000 ≤ n

/-- ASCII characters that have a meaning elsewhere in a URL. -/
def isForbidden (c : Char) : Bool :=
  c.toNat < 0x21 || c.toNat = 0x7F || "#/:<>?@[\\]^|%".toList.contains c

/-- A label as it is looked up. -/
def foldLabel (label : List Char) : Except UrlError (List Char) :=
  if label.any (fun c => 0x80 ≤ c.toNat) then .ok (Label.bootLabel label)
  else if Label.isMarked label then
    match Label.read? label with
    | some read =>
      if read.any (fun c => isDisallowed c || isIgnored c || foldLetter c ≠ c) then .error .badDomain
      else .ok label
    | none => .error .badDomain
  else .ok label

/-- A name as it is looked up. -/
def foldName (name : List Char) : Except UrlError (List Char) :=
  let folded := (name.filter (fun c => !isIgnored c)).map foldLetter
  if folded.any isDisallowed || folded.any isForbidden then .error .badDomain
  else ((splitChars '.' folded).mapM foldLabel).map (".".toList.intercalate ·)

/-! ### Addresses in dotted numbers -/

/-- The digits of a number in a base of eight, ten or sixteen. -/
def digitsInBase? (base : Nat) (digits : List Char) : Option Nat :=
  digits.foldlM (fun n c =>
    match hexValue? (asciiByte c) with
    | some d => if d < base ∧ c.toNat < 0x80 then some (n * base + d) else none
    | none => none) 0

/-- A part of a dotted address: decimal, octal behind `0`, or hexadecimal behind `0x`. -/
def ipv4Part? : List Char → Option Nat
  | [] => none
  | '0' :: 'x' :: digits => digitsInBase? 16 digits
  | '0' :: 'X' :: digits => digitsInBase? 16 digits
  | ['0'] => some 0
  | '0' :: digits => digitsInBase? 8 digits
  | digits => digitsInBase? 10 digits

/-- The parts of a dotted text; one empty part at the end does not count. -/
def dottedParts (name : List Char) : List (List Char) :=
  let parts := splitChars '.' name
  if parts.getLast? = some [] then parts.dropLast else parts

/-- Whether the last label is a number, so that the name has to be an address. -/
def endsInNumber (name : List Char) : Bool :=
  match (dottedParts name).getLast? with
  | none => false
  | some last => (!last.isEmpty && last.all Char.isDigit) || (ipv4Part? last).isSome

/-- An address of up to four parts; the last one fills all the bytes that are left. -/
def ipv4? (name : List Char) : Option Nat := do
  let numbers ← (dottedParts name).mapM ipv4Part?
  let last ← numbers.getLast?
  let front := numbers.dropLast
  if 3 < front.length || front.any (fun n => 255 < n) || Nat.pow 2 (8 * (4 - front.length)) ≤ last then none
  else
    let high := front.zipIdx.foldl (fun sum (n, i) => sum + n * Nat.pow 2 (8 * (3 - i))) 0
    some (high + last)

/-! ### Addresses in brackets -/

/-- A piece of sixteen bits: one to four hexadecimal digits. -/
def piece? (digits : List Char) : Option Nat :=
  if digits.isEmpty || 4 < digits.length then none else digitsInBase? 16 digits

/-- A byte of a dotted ending: no leading zero, at most 255. -/
def endingByte? (digits : List Char) : Option Nat :=
  if digits.head? = some '0' ∧ digits.length ≠ 1 then none
  else
    match natOfDigits? digits with
    | some n => if n ≤ 255 then some n else none
    | none => none

/-- Pieces between colons; a dotted ending, where it is allowed, gives two of them. -/
def pieces? (dotted : Bool) : List (List Char) → Option (List Nat)
  | [] => some []
  | [last] =>
    match dotted, (splitChars '.' last).mapM endingByte? with
    | true, some [a, b, c, d] => some [a * 256 + b, c * 256 + d]
    | _, _ => (piece? last).map fun n => [n]
  | p :: rest =>
    match piece? p, pieces? dotted rest with
    | some n, some ns => some (n :: ns)
    | _, _ => none

/-- Splits at the first double colon. -/
def splitDouble : List Char → Option (List Char × List Char)
  | ':' :: ':' :: rest => some ([], rest)
  | c :: rest => (splitDouble rest).map fun (a, b) => (c :: a, b)
  | [] => none

/-- Pieces of one side of a double colon, which may be empty. -/
def sidePieces? (dotted : Bool) (side : List Char) : Option (List Nat) :=
  if side.isEmpty then some [] else pieces? dotted (splitChars ':' side)

/-- An address of eight pieces, of which a double colon stands for one or more zeros. -/
def ipv6? (text : List Char) : Option (List Nat) :=
  match splitDouble text with
  | none =>
    match pieces? true (splitChars ':' text) with
    | some ps => if ps.length = 8 then some ps else none
    | none => none
  | some (left, right) =>
    match sidePieces? false left, sidePieces? true right with
    | some a, some b =>
      if a.length + b.length ≤ 7 then some (a ++ List.replicate (8 - a.length - b.length) 0 ++ b)
      else none
    | _, _ => none

def bracketed (text : List Char) : Except UrlError Host :=
  if text.getLast? ≠ some ']' then .error .badIpv6
  else
    match ipv6? (text.drop 1).dropLast with
    | some pieces => .ok (.ipv6 pieces)
    | none => .error .badIpv6

/-! ### Hosts -/

def parse (text : List Char) : Except UrlError Host :=
  if text.head? = some '[' then bracketed text
  else
    let decoded := Utf8.decodeLossy (Percent.decodeBytes (Utf8.encode (String.ofList text)))
    match foldName decoded with
    | .error e => .error e
    | .ok folded =>
      if folded.isEmpty then .error .emptyHost
      else if endsInNumber folded then
        match ipv4? folded with
        | some address => .ok (.ipv4 address)
        | none => .error .badIpv4
      else .ok (.name (String.ofList folded))

/-- The host of any other scheme: an address in brackets, or any name without the
    characters that delimit. -/
def parseAny (text : List Char) : Except UrlError Host :=
  if text.head? = some '[' then bracketed text
  else if text.any (fun c => "\x00\t\n\r #/:<>?@[\\]^|".toList.contains c) then
    .error .badHostCharacter
  else .ok (.name (Url.escape Url.controlSet text))

end Host
end TerraformCloud
