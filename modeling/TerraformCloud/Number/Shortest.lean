/-
  TerraformCloud/Number/Shortest.lean
  ===================================
  **The fewest decimal digits that read back as the same double.**

  The reals that round to a double form an interval around it, which contains its
  ends when the significand is even.  On the grid of multiples of `10 ^ k` only the
  two neighbours of the double can lie in that interval without a closer one doing so
  too; so the shortest digits are found by trying the grids from coarse to fine and
  taking the first neighbour that falls inside.
-/
import TerraformCloud.Number.Binary64

namespace TerraformCloud

/-- The number of decimal digits of a natural number (one for zero). -/
def digitCount (n : Nat) : Nat := (Nat.toDigits 10 n).length

namespace Binary64

/-- The power of ten at or below a positive fraction. -/
def decimalOrder (num den : Nat) : Int :=
  if den ≤ num then (digitCount (num / den) : Int) - 1
  else -(digitCount ((den - 1) / num) : Int)

/-- Whether `d · 10 ^ k` rounds to the positive finite double `x`.  Everything is
    measured in quarters of the last place: a neighbour is half a place away, but
    only a quarter below a power of two that has a smaller neighbour binade. -/
def roundsTo (x : Binary64) (d : Nat) (k : Int) : Bool :=
  let m := x.significand
  let below := if x.fraction = 0 ∧ 1 < x.exponentField then 1 else 2
  let a := 4 * d * Nat.pow 10 k.toNat * Nat.pow 2 (-x.scale).toNat
  let unit := Nat.pow 10 (-k).toNat * Nat.pow 2 x.scale.toNat
  let low := (4 * m - below) * unit
  let high := (4 * m + 2) * unit
  if m % 2 = 0 then low ≤ a && a ≤ high else low < a && a < high

/-- The digits on the grid `10 ^ k` that round to `x`, if any; of two the nearer,
    and on a tie the even one. -/
def onGrid (x : Binary64) (k : Int) : Option (Nat × Int) :=
  let a := x.num * Nat.pow 10 (-k).toNat
  let b := x.den * Nat.pow 10 k.toNat
  let low := a / b
  let near := roundHalfEven a b
  let far := if near = low then low + 1 else low
  if x.roundsTo near k then some (near, k)
  else if x.roundsTo far k then some (far, k)
  else none

/-- Digits `d` and exponent `k` with the fewest digits such that `d · 10 ^ k` reads
    back as the positive finite double `x`.  Seventeen digits always suffice. -/
def shortest (x : Binary64) : Nat × Int :=
  let order := decimalOrder x.num x.den
  ((List.range 17).findSome? (fun (n : Nat) => x.onGrid (order - n))).getD (0, 0)

end Binary64
end TerraformCloud
