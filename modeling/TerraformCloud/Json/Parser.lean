/-
  TerraformCloud/Json/Parser.lean
  ===============================
  **Reading a JSON document.**

  The parser accepts exactly the grammar of JSON, with nothing but blanks before and
  after the document, and keeps every member in its place.  It decides the syntax
  alone: which leaves hold a text or a number is recorded in the tree, and how deep
  the nesting may be is left to who looks at it.
-/
import TerraformCloud.Json.Text
import TerraformCloud.Json.Tree

namespace TerraformCloud.Json

/-! ### Tokens -/

def isBlank (b : UInt8) : Bool := b = 0x20 || b = 0x09 || b = 0x0A || b = 0x0D

def skipBlanks (input : Bytes) : Bytes := input.dropWhile isBlank

@[match_pattern] abbrev comma : UInt8 := 0x2C
@[match_pattern] abbrev colon : UInt8 := 0x3A
@[match_pattern] abbrev minus : UInt8 := 0x2D
@[match_pattern] abbrev point : UInt8 := 0x2E
@[match_pattern] abbrev openBracket : UInt8 := 0x5B
@[match_pattern] abbrev closeBracket : UInt8 := 0x5D
@[match_pattern] abbrev openBrace : UInt8 := 0x7B
@[match_pattern] abbrev closeBrace : UInt8 := 0x7D

/-- What follows a literal word at the front of the input. -/
def dropWord? (word : String) (input : Bytes) : Option Bytes :=
  let bytes := Utf8.encode word
  if input.take bytes.length = bytes then some (input.drop bytes.length) else none

def digitBytes (digits : Bytes) : List Nat := digits.map (fun b => b.toNat - 0x30)

/-- A nonempty run of digits and what follows it. -/
def digits? (input : Bytes) : Option (List Nat × Bytes) :=
  let run := input.takeWhile isDigitByte
  if run.isEmpty then none else some (digitBytes run, input.dropWhile isDigitByte)

/-- The digits behind a point, if there is one. -/
def places? : Bytes → Option (Option (List Nat) × Bytes)
  | point :: rest => (digits? rest).map fun (ds, r) => (some ds, r)
  | input => some (none, input)

/-- The exponent, if there is one. -/
def exponent? : Bytes → Option (Option (Bool × List Nat) × Bytes)
  | [] => some (none, [])
  | e :: rest =>
    if e = asciiByte 'e' ∨ e = asciiByte 'E' then
      let (negative, body) :=
        match rest with
        | s :: r => if s = minus then (true, r) else if s = asciiByte '+' then (false, r) else (false, rest)
        | [] => (false, [])
      (digits? body).map fun (ds, r) => (some (negative, ds), r)
    else some (none, e :: rest)

/-- A number and what follows it.  No digit follows a leading zero. -/
def number? (input : Bytes) : Option (NumberText × Bytes) :=
  let (negative, body) :=
    match input with
    | minus :: r => (true, r)
    | r => (false, r)
  match digits? body with
  | none => none
  | some (whole, r) =>
    if whole.head? = some 0 ∧ whole.length ≠ 1 then none
    else
      match places? r with
      | none => none
      | some (places, r') =>
        (exponent? r').map fun (exponent, r'') => (⟨negative, whole, places, exponent⟩, r'')

/-! ### Values -/

mutual
/-- One value and what follows it. -/
def parseValue : Nat → Bytes → Option (Written × Bytes)
  | 0, _ => none
  | fuel + 1, input =>
    match skipBlanks input with
    | quote :: rest => (delimit? rest).map fun (s, r) => (.string (text? s), r)
    | openBracket :: rest =>
      match skipBlanks rest with
      | closeBracket :: r => some (.array [], r)
      | _ => (parseItems fuel rest).map fun (items, r) => (.array items, r)
    | openBrace :: rest =>
      match skipBlanks rest with
      | closeBrace :: r => some (.object [], r)
      | _ => (parseMembers fuel rest).map fun (members, r) => (.object members, r)
    | body =>
      match dropWord? "null" body, dropWord? "true" body, dropWord? "false" body with
      | some r, _, _ => some (.null, r)
      | _, some r, _ => some (.bool true, r)
      | _, _, some r => some (.bool false, r)
      | _, _, _ => (number? body).map fun (n, r) => (.number (Number.ofText? n), r)

/-- The items of an array up to its closing bracket, at least one. -/
def parseItems : Nat → Bytes → Option (List Written × Bytes)
  | 0, _ => none
  | fuel + 1, input =>
    match parseValue fuel input with
    | none => none
    | some (item, rest) =>
      match skipBlanks rest with
      | comma :: r => (parseItems fuel r).map fun (items, r') => (item :: items, r')
      | closeBracket :: r => some ([item], r)
      | _ => none

/-- The members of an object up to its closing brace, at least one. -/
def parseMembers : Nat → Bytes → Option (List (Option String × Written) × Bytes)
  | 0, _ => none
  | fuel + 1, input =>
    match skipBlanks input with
    | quote :: rest =>
      match delimit? rest with
      | none => none
      | some (key, afterKey) =>
        match skipBlanks afterKey with
        | colon :: r =>
          match parseValue fuel r with
          | none => none
          | some (value, rest') =>
            match skipBlanks rest' with
            | comma :: r' =>
              (parseMembers fuel r').map fun (members, r'') => ((text? key, value) :: members, r'')
            | closeBrace :: r' => some ([(text? key, value)], r')
            | _ => none
        | _ => none
    | _ => none
end

/-- The document at the front of bytes, and what follows it.  Each step of the parser
    either consumes a byte or enters a part that does, so twice the length bounds the
    number of nested steps. -/
def front? (input : Bytes) : Option (Written × Bytes) := parseValue (2 * input.length + 2) input

/-- The document that bytes spell, with nothing but blanks behind it. -/
def parse? (input : Bytes) : Option Written :=
  match front? input with
  | some (document, rest) => if (skipBlanks rest).isEmpty then some document else none
  | none => none

/-- The value that bytes spell, at most `Written.depthLimit` containers deep. -/
def parseValue? (input : Bytes) : Option Value :=
  (parse? input).bind (Written.value? Written.depthLimit)

end TerraformCloud.Json
