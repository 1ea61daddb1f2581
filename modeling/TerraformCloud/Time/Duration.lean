/-
  TerraformCloud/Time/Duration.lean
  =================================
  **Lengths of time, to the nanosecond.**

  A duration is a whole number of seconds below `2 ^ 64` and a whole number of
  nanoseconds below a second.  The bound is part of the type, so every operation
  says what it does beyond it: subtraction stops at zero, multiplication stops at
  the longest duration, and a sum that is too long does not exist.
-/
import TerraformCloud.Number.Binary64

namespace TerraformCloud

def nanosPerSecond : Nat := 1000000000

def nanosPerMilli : Nat := 1000000

/-- Nanoseconds of the longest duration: the last one before `2 ^ 64` seconds. -/
def longestNanos : Nat := UInt64.size * nanosPerSecond - 1

/-- A length of time in nanoseconds. -/
structure Duration where
  nanos : Nat
  le_longest : nanos ≤ longestNanos
deriving DecidableEq, Repr

namespace Duration

@[ext] theorem ext {a b : Duration} (h : a.nanos = b.nanos) : a = b := by
  cases a; cases b; cases h; rfl

/-- The duration of that many nanoseconds, if it is not too long. -/
def ofNanos? (n : Nat) : Option Duration :=
  if h : n ≤ longestNanos then some ⟨n, h⟩ else none

/-- The duration of that many nanoseconds, or the longest one. -/
def ofNanos (n : Nat) : Duration := ⟨min n longestNanos, Nat.min_le_right ..⟩

def zero : Duration := ⟨0, Nat.zero_le _⟩

instance : Inhabited Duration := ⟨zero⟩

def longest : Duration := ⟨longestNanos, Nat.le_refl _⟩

def ofMillis (ms : Nat) : Duration := ofNanos (ms * nanosPerMilli)

def max (a b : Duration) : Duration := if a.nanos < b.nanos then b else a

def min (a b : Duration) : Duration := if b.nanos < a.nanos then b else a

/-- Subtraction that stops at zero. -/
def monus (a b : Duration) : Duration :=
  ⟨a.nanos - b.nanos, Nat.le_trans (Nat.sub_le ..) a.le_longest⟩

/-- Multiplication that stops at the longest duration. -/
def scale (a : Duration) (n : Nat) : Duration := ofNanos (a.nanos * n)

/-- The sum, if it is not too long. -/
def add? (a b : Duration) : Option Duration := ofNanos? (a.nanos + b.nanos)

/-- The duration of a number of seconds, to the nearest nanosecond (a half goes to
    the even one).  Negative numbers and those from `2 ^ 64` on have none. -/
def ofSeconds? (s : Binary64) : Option Duration :=
  if !s.isFinite || (s.isNegative && !s.isZero) then none
  else if s.den * UInt64.size ≤ s.num then none
  else ofNanos? (roundHalfEven (s.num * nanosPerSecond) s.den)

end Duration
end TerraformCloud
