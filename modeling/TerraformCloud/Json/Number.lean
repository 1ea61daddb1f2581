/-
  TerraformCloud/Json/Number.lean
  ===============================
  **Numbers of a JSON document.**

  A number written without point and exponent is an integer when it fits into
  sixty-four bits, with or without sign; every other number is a double.

  A double is read from at most one machine word of digits.  The significand is the
  longest run of leading digits below `2 ^ 64`; the digits after it only move the
  point (before the point) or are dropped (after it), and the significand is then
  multiplied or divided by a rounded power of ten.  For long numbers the result can
  therefore differ from the nearest double in the last bit.
-/
import TerraformCloud.Number.DecimalText
import TerraformCloud.Number.Shortest

namespace TerraformCloud.Json

/-- A number: an integer of at most sixty-four bits, or a finite double. -/
inductive Number where
  | integer (n : Int)
  | real (x : Binary64)
deriving DecidableEq, Repr

/-- A number as its parts are written: sign, digits before the point, digits after
    it, and exponent.  Two signs that both say "minus zero" differ in their text. -/
structure NumberText where
  negative : Bool
  whole : List Nat
  places : Option (List Nat)
  exponent : Option (Bool × List Nat)
deriving DecidableEq, Repr

namespace Number

/-- The first number that a machine word cannot hold. -/
def wordLimit : Nat := UInt64.size

/-- Appends digits to a significand for as long as it fits, and counts how many
    digits were left over. -/
def absorb : Nat → List Nat → Nat × Nat
  | significand, [] => (significand, 0)
  | significand, d :: rest =>
    if significand * 10 + d < wordLimit then absorb (significand * 10 + d) rest
    else (significand, rest.length + 1)

/-- Divides by a power of ten, in steps when it is beyond the largest one. -/
def scaleDown (x : Binary64) (places : Nat) : Binary64 :=
  if places ≤ 308 then x.div (.tenPow places)
  else if x.isZero then x
  else scaleDown (x.div (.tenPow 308)) (places - 308)
termination_by places

/-- `significand · 10 ^ exponent`, unless that is beyond every double. -/
def scaled? (significand : Nat) (exponent : Int) : Option Binary64 :=
  let x := Binary64.ofNat significand
  if exponent < 0 then some (scaleDown x (-exponent).toNat)
  else if exponent ≤ 308 then
    let y := x.mul (.tenPow exponent.toNat)
    if y.isFinite then some y else none
  else if x.isZero then some x
  else none

/-- Exponents are counted in a signed word of thirty-two bits. -/
def exponentLimit : Nat := Nat.pow 2 31

/-- The double with this significand, power of ten and written exponent. -/
def withExponent? (significand : Nat) (shift : Int) : Option (Bool × List Nat) → Option Binary64
  | none => scaled? significand shift
  | some (negative, digits) =>
    let n := digits.foldl (fun n d => 10 * n + d) 0
    if exponentLimit ≤ n then
      if significand ≠ 0 ∧ !negative then none else some (.ofMagnitude false 0)
    else
      let sum := if negative then shift - n else shift + n
      scaled? significand (max (-exponentLimit) (min (exponentLimit - 1) sum))

/-- The number that a text stands for; none when it is beyond every double. -/
def ofText? (t : NumberText) : Option Number :=
  let signed (x : Binary64) : Number := .real (if t.negative then x.negate else x)
  let (significand, skipped) := absorb 0 t.whole
  match t.places, t.exponent with
  | none, none =>
    if skipped ≠ 0 then (scaled? significand skipped).map signed
    else if !t.negative then some (.integer significand)
    else if significand = 0 ∨ Nat.pow 2 63 < significand then some (signed (.ofNat significand))
    else some (.integer (-significand))
  | places, exponent =>
    let digits := places.getD []
    let (all, dropped) := absorb significand digits
    (withExponent? all ((skipped : Int) - (digits.length - dropped : Nat)) exponent).map signed

/-! ### Printing -/

/-- How a double is laid out: which powers of ten of its first digit are written
    without exponent. -/
structure Layout where
  leastPlain : Int
  greatestPlain : Int
deriving Repr

/-- From `0.00001` up to below `10 ^ 16` numbers are written without exponent. -/
def layout : Layout := ⟨-5, 15⟩

/-- Digits of a number without its trailing zeros, and how many there were. -/
def stripZeros (digits : List Char) : List Char × Nat :=
  let zeros := digits.reverse.takeWhile (· = '0')
  (digits.take (digits.length - zeros.length), zeros.length)

/-- Lays out significant digits, the first of which has the given power of ten. -/
def Layout.write (l : Layout) (digits : List Char) (order : Int) : List Char :=
  if l.leastPlain ≤ order ∧ order ≤ l.greatestPlain then
    if order < 0 then ['0', '.'] ++ List.replicate (-order - 1).toNat '0' ++ digits
    else
      let n := order.toNat + 1
      let whole := digits.take n ++ List.replicate (n - digits.length) '0'
      let places := digits.drop n
      whole ++ '.' :: (if places.isEmpty then ['0'] else places)
  else
    let places := digits.drop 1
    digits.take 1 ++ (if places.isEmpty then [] else '.' :: places) ++
      'e' :: (if order < 0 then '-' else '+') :: Nat.toDigits 10 order.natAbs

/-- The text of a finite double: its shortest digits; a whole number keeps `.0`. -/
def realText (x : Binary64) : List Char :=
  let sign := if x.isNegative then ['-'] else []
  if x.significand = 0 then sign ++ ['0', '.', '0']
  else
    let (d, k) := x.shortest
    let all := Nat.toDigits 10 d
    sign ++ layout.write (stripZeros all).1 (k + all.length - 1)

def text : Number → List Char
  | .integer n => (if n < 0 then ['-'] else []) ++ Nat.toDigits 10 n.natAbs
  | .real x => realText x

end Number
end TerraformCloud.Json
