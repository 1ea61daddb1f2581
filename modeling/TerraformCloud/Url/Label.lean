/-
  TerraformCloud/Url/Label.lean
  =============================
  **Labels outside ASCII, spelled in ASCII.**

  A label of a domain name with characters outside ASCII is spelled by the bootstring
  encoding: the basic characters first, then the others in ascending order, each as a
  distance from the last, in digits whose weights adapt to the distances so far.
  Reading undoes this, and a label counts as spelled well only when spelling what was
  read gives it back.
-/

namespace TerraformCloud.Label

/-- What stands in front of a label that was spelled. -/
def marker : List Char := "xn--".toList

/-! ### Numbers -/

/-- A digit of base thirty-six: letters, then numerals. -/
def bootDigit (d : Nat) : Char :=
  if d < 26 then Char.ofNat (0x61 + d) else Char.ofNat (0x30 + (d - 26))

/-- The least value that ends a number at the digit of weight position `k`. -/
def threshold (k bias : Nat) : Nat := max 1 (min 26 (k - bias))

theorem one_le_threshold (k bias : Nat) : 1 ≤ threshold k bias := Nat.le_max_left ..

/-- A distance as digits, least significant first; a digit below its threshold is the last. -/
def bootNumber (bias k q : Nat) : List Char :=
  if _h : q < threshold k bias then [bootDigit q]
  else
    let t := threshold k bias
    bootDigit (t + (q - t) % (36 - t)) :: bootNumber bias (k + 36) ((q - t) / (36 - t))
termination_by q
decreasing_by
  have h1 := one_le_threshold k bias
  have h2 := Nat.div_le_self (q - threshold k bias) (36 - threshold k bias)
  omega

/-- Divides a mean distance down to a single step of the bias. -/
def biasSteps (delta k : Nat) : Nat × Nat :=
  if _h : 455 < delta then biasSteps (delta / 35) (k + 36) else (delta, k)
termination_by delta

/-- The bias after a distance `delta`, with `count` characters placed. -/
def adaptBias (delta count : Nat) (first : Bool) : Nat :=
  let d := if first then delta / 700 else delta / 2
  let (rest, k) := biasSteps (d + d / count) 0
  k + 36 * rest / (rest + 38)

/-! ### Writing -/

/-- The state of an encoding: digits written, distance since the last, bias, and
    characters placed. -/
structure BootState where
  out : List Char
  delta : Nat
  bias : Nat
  placed : Nat

/-- Passes one character of the label while placing the code point `m`. -/
def BootState.pass (basic m : Nat) (st : BootState) (c : Char) : BootState :=
  if c.toNat < m then { st with delta := st.delta + 1 }
  else if c.toNat = m then
    ⟨st.out ++ bootNumber st.bias 36 st.delta, 0,
      adaptBias st.delta (st.placed + 1) (st.placed = basic), st.placed + 1⟩
  else st

/-- Places every code point of an ascending list; `n` is the first one not yet passed. -/
def placeAll (label : List Char) (basic : Nat) : List Nat → Nat → BootState → BootState
  | [], _, st => st
  | m :: rest, n, st =>
    let st := { st with delta := st.delta + (m - n) * (st.placed + 1) }
    let st := label.foldl (BootState.pass basic m) st
    placeAll label basic rest (m + 1) { st with delta := st.delta + 1 }

/-- The label in ASCII, behind the marker of such labels. -/
def bootLabel (label : List Char) : List Char :=
  let basic := label.filter (fun c => c.toNat < 0x80)
  let others := (label.filter (fun c => 0x80 ≤ c.toNat)).map Char.toNat
  let ascending := (others.mergeSort (fun a b => a ≤ b)).eraseDups
  let st := placeAll label basic.length ascending 0x80 ⟨[], 0, 72, basic.length⟩
  marker ++ basic ++ (if basic.isEmpty then [] else ['-']) ++ st.out

/-! ### Reading -/

/-- The value of a digit of base thirty-six. -/
def bootValue? (c : Char) : Option Nat :=
  if 'a' ≤ c ∧ c ≤ 'z' then some (c.toNat - 0x61)
  else if c.isDigit then some (c.toNat - 0x30 + 26)
  else none

/-- The character with a code point outside ASCII. -/
def otherChar? (n : Nat) : Option Char := if n.isValidChar ∧ 0x80 ≤ n then some (Char.ofNat n) else none

/-- The state of a reading: the characters placed so far, the last code point and the
    place behind it, the bias, and the number being read with the weight and position
    of its next digit. -/
structure BootReading where
  out : List Char
  last : Nat
  place : Nat
  bias : Nat
  number : Nat
  weight : Nat
  position : Nat

/-- Reads one digit; the digit that ends a number places a character. -/
def BootReading.digit? (r : BootReading) (c : Char) : Option BootReading := do
  let d ← bootValue? c
  let t := threshold r.position r.bias
  let number := r.number + d * r.weight
  if t ≤ d then
    return { r with number, weight := r.weight * (36 - t), position := r.position + 36 }
  else
    let count := r.out.length + 1
    let last := r.last + (r.place + number) / count
    let place := (r.place + number) % count
    let other ← otherChar? last
    return { out := r.out.take place ++ other :: r.out.drop place, last, place := place + 1,
             bias := adaptBias number count (r.place = 0), number := 0, weight := 1, position := 36 }

/-- Characters up to the last dash, and those behind it; all are behind it without one. -/
def splitDash (text : List Char) : List Char × List Char :=
  let tail := (text.reverse.takeWhile (· ≠ '-')).reverse
  ((text.take (text.length - tail.length)).dropLast, tail)

/-- The label that a spelling behind the marker stands for. -/
def unbootLabel? (text : List Char) : Option (List Char) := do
  let (basic, digits) := splitDash text
  let r ← digits.foldlM BootReading.digit? ⟨basic, 0x80, 0, 72, 0, 1, 36⟩
  if r.position = 36 then some r.out else none

def isMarked (label : List Char) : Bool := marker.isPrefixOf label

/-- The label behind a marked spelling, if it is spelled well. -/
def read? (label : List Char) : Option (List Char) := do
  let read ← unbootLabel? (label.drop marker.length)
  if read.any (fun c => 0x80 ≤ c.toNat) ∧ bootLabel read = label then some read else none

end TerraformCloud.Label
