/-
  TerraformCloud/Number/Binary64.lean
  ===================================
  **Double-precision numbers as exact fractions.**

  A finite double is `± significand · 2 ^ scale`, and every operation of the format
  is the exact one on fractions followed by rounding to the nearest double, a tie
  going to the even significand.  So one rounding function, `Binary64.ofRatio`,
  gives reading, multiplication and division, in plain natural-number arithmetic.
  Powers are `Nat.pow` itself, which means the same whatever else is imported.
-/

namespace TerraformCloud

/-- The quotient rounded to the nearest natural number; a tie goes to the even one. -/
def roundHalfEven (num den : Nat) : Nat :=
  let q := num / den
  let r := num % den
  if 2 * r < den then q else if den < 2 * r then q + 1 else q + q % 2

/-- A double by its bits: sign, eleven bits of exponent, fifty-two of fraction. -/
structure Binary64 where
  bits : UInt64
deriving DecidableEq, Repr, Inhabited

namespace Binary64

/-! ### Reading the bits -/

def isNegative (x : Binary64) : Bool := decide (Nat.pow 2 63 ≤ x.bits.toNat)

def exponentField (x : Binary64) : Nat := x.bits.toNat / Nat.pow 2 52 % Nat.pow 2 11

def fraction (x : Binary64) : Nat := x.bits.toNat % Nat.pow 2 52

/-- The largest biased exponent marks infinities and non-numbers. -/
def isFinite (x : Binary64) : Bool := x.exponentField ≠ 2047

/-- The integer part of the form `significand · 2 ^ scale`. -/
def significand (x : Binary64) : Nat :=
  if x.exponentField = 0 then x.fraction else x.fraction + Nat.pow 2 52

/-- The power of two of the form `significand · 2 ^ scale`. -/
def scale (x : Binary64) : Int := (max x.exponentField 1 : Nat) - 1075

def isZero (x : Binary64) : Bool := x.isFinite && x.significand == 0

/-- Numerator of the absolute value. -/
def num (x : Binary64) : Nat := x.significand * Nat.pow 2 x.scale.toNat

/-- Denominator of the absolute value. -/
def den (x : Binary64) : Nat := Nat.pow 2 (-x.scale).toNat

def isPositiveFinite (x : Binary64) : Bool := x.isFinite && !x.isNegative && x.significand != 0

/-! ### Rounding to a double -/

/-- Bits from a sign and a magnitude. -/
def ofMagnitude (negative : Bool) (magnitude : Nat) : Binary64 :=
  ⟨UInt64.ofNat (magnitude + if negative then Nat.pow 2 63 else 0)⟩

/-- Bits of the magnitude of an infinity. -/
def infinityMagnitude : Nat := 2047 * Nat.pow 2 52

def infinity (negative : Bool) : Binary64 := ofMagnitude negative infinityMagnitude

/-- The usual non-number. -/
def nan : Binary64 := ofMagnitude false (infinityMagnitude + Nat.pow 2 51)

def negate (x : Binary64) : Binary64 := ofMagnitude (!x.isNegative) (x.bits.toNat % Nat.pow 2 63)

/-- `num / den` divided by `2 ^ q`, as a fraction. -/
def scaleRatio (num den : Nat) (q : Int) : Nat × Nat :=
  (num * Nat.pow 2 (-q).toNat, den * Nat.pow 2 q.toNat)

/-- The scale at which `num / den` has a significand of fifty-three bits, or the
    least scale of the format when that is larger. -/
def scaleFor (num den : Nat) : Int :=
  let guess : Int := (Nat.log2 num : Int) - (Nat.log2 den : Int) - 52
  let (a, b) := scaleRatio num den guess
  max (if a < b * Nat.pow 2 52 then guess - 1 else guess) (-1074)

/-- The double nearest to `± num / den`, ties to even; infinite beyond the largest. -/
def ofRatio (negative : Bool) (num den : Nat) : Binary64 :=
  if num = 0 then ofMagnitude negative 0
  else
    let q := scaleFor num den
    let (a, b) := scaleRatio num den q
    let magnitude := (q + 1074).toNat * Nat.pow 2 52 + roundHalfEven a b
    ofMagnitude negative (min magnitude infinityMagnitude)

def ofNat (n : Nat) : Binary64 := ofRatio false n 1

def tenPow (n : Nat) : Binary64 := ofNat (Nat.pow 10 n)

/-- The double nearest to `± digits · 10 ^ exponent`.  Exponents that put the value
    beyond every double, or below half of the least one, are answered without
    computing the power. -/
def ofDecimal (negative : Bool) (digits : Nat) (exponent : Int) : Binary64 :=
  if digits = 0 then ofMagnitude negative 0
  else
    let top : Int := (Nat.log2 digits : Int) / 3 + 1 + exponent
    if top < -400 then ofMagnitude negative 0
    else if 400 < exponent then infinity negative
    else ofRatio negative (digits * Nat.pow 10 exponent.toNat) (Nat.pow 10 (-exponent).toNat)

/-! ### Arithmetic on finite numbers -/

/-- The rounded product. -/
def mul (x y : Binary64) : Binary64 :=
  ofRatio (x.isNegative != y.isNegative) (x.num * y.num) (x.den * y.den)

/-- The rounded quotient, for a divisor other than zero. -/
def div (x y : Binary64) : Binary64 :=
  ofRatio (x.isNegative != y.isNegative) (x.num * y.den) (x.den * y.num)

/-- The largest natural number not above a positive number. -/
def floor (x : Binary64) : Nat := x.num / x.den

end Binary64
end TerraformCloud
