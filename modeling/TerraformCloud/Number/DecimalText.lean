/-
  TerraformCloud/Number/DecimalText.lean
  ======================================
  **Doubles written as decimal text.**

  A number in a header is a sign, digits with at most one point among or around
  them, and an exponent; `inf`, `infinity` and `nan` stand for themselves in any
  case.  The value is the double nearest to what the text says.
-/
import TerraformCloud.Number.Binary64

namespace TerraformCloud

def digitValue (c : Char) : Nat := c.toNat - '0'.toNat

/-- The number that decimal digits spell, most significant first. -/
def natOfDigits (digits : List Char) : Nat :=
  digits.foldl (fun n c => 10 * n + digitValue c) 0

/-- The number that a nonempty text of decimal digits spells. -/
def natOfDigits? (digits : List Char) : Option Nat :=
  if digits.isEmpty || !digits.all Char.isDigit then none else some (natOfDigits digits)

namespace Binary64

/-- Splits a sign off the front; without one the text is positive. -/
def splitSign : List Char → Bool × List Char
  | '-' :: rest => (true, rest)
  | '+' :: rest => (false, rest)
  | text => (false, text)

/-- The exponent that follows the digits: nothing, or `e` with an optional sign and
    at least one digit. -/
def exponentOf : List Char → Option Int
  | [] => some 0
  | e :: rest =>
    if e = 'e' ∨ e = 'E' then
      let (negative, digits) := splitSign rest
      (natOfDigits? digits).map (fun n => if negative then -(n : Int) else n)
    else none

/-- Digits, a point and digits (of which one side may be empty), and an exponent. -/
def ofUnsigned? (negative : Bool) (text : List Char) : Option Binary64 :=
  let whole := text.takeWhile Char.isDigit
  let (places, rest) :=
    match text.dropWhile Char.isDigit with
    | '.' :: r => (r.takeWhile Char.isDigit, r.dropWhile Char.isDigit)
    | r => ([], r)
  if whole.isEmpty && places.isEmpty then none
  else (exponentOf rest).map fun exponent =>
    ofDecimal negative (natOfDigits (whole ++ places)) (exponent - places.length)

/-- The double a text stands for. -/
def ofText? (text : String) : Option Binary64 :=
  let (negative, body) := splitSign text.toList
  let word := String.ofList (body.map Char.toLower)
  if word = "inf" ∨ word = "infinity" then some (infinity negative)
  else if word = "nan" then some nan
  else ofUnsigned? negative body

end Binary64
end TerraformCloud
