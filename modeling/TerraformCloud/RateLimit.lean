/-
  TerraformCloud/RateLimit.lean
  =============================
  **Request budgets that the service announces.**

  A response may say how many requests per second are allowed and when the current
  window ends.  The client spends two thirds of the announced rate, and may send a
  third of it at once.  A rate whose period is zero, or longer than every duration,
  is no limit.  A period that is a duration, but too long to be counted, is a crash.
-/
import TerraformCloud.Error
import TerraformCloud.Http.Header
import TerraformCloud.Number.DecimalText
import TerraformCloud.Text.Blank
import TerraformCloud.Time.Duration

namespace TerraformCloud

/-- What a response says about rate limits. -/
structure RateLimitInfo where
  /-- Requests per second. -/
  limit : Option Binary64
  resetAfter : Option Duration
deriving DecidableEq, Repr

namespace RateLimitInfo

def limitField : String := "x-ratelimit-limit"

def resetField : String := "x-ratelimit-reset"

/-- The positive number that a field holds. -/
def positive? (fields : Http.Fields) (name : String) : Option Binary64 := do
  let value ← Http.plainValue? fields name
  let x ← Binary64.ofText? (String.ofList (trimBlanks value.toList))
  if x.isPositiveFinite then some x else none

/-- What the fields of a response say. -/
def ofFields (fields : Http.Fields) : RateLimitInfo :=
  ⟨positive? fields limitField, (positive? fields resetField).bind Duration.ofSeconds?⟩

end RateLimitInfo

/-- A limit as it is kept: a sustained rate, and how many requests may go at once. -/
structure RateLimit where
  rate : Binary64
  burst : Nat
deriving DecidableEq, Repr

namespace RateLimit

/-- The largest burst that is counted. -/
def largestBurst : Nat := UInt32.size - 1

/-- The longest period that is counted, in nanoseconds. -/
def longestPeriod : Nat := UInt64.size - 1

/-- The limit to keep where a number of requests per second is announced, if there is one. -/
def ofAnnounced (limit : Binary64) : Except ApiError (Option RateLimit) :=
  if !limit.isPositiveFinite then .ok none
  else
    let doubled := limit.mul (.ofNat 2)
    if !doubled.isFinite then .ok none
    else
      let rate := doubled.div (.ofNat 3)
      if rate.isZero then .ok none
      else
        match Duration.ofSeconds? ((Binary64.ofNat 1).div rate) with
        | none => .ok none
        | some period =>
          if period.nanos = 0 then .ok none
          else if longestPeriod < period.nanos then .error .limitTooSlow
          else .ok (some ⟨rate, max 1 (min largestBurst (limit.div (.ofNat 3)).floor)⟩)

/-- The limit to keep by what a response says. -/
def ofInfo (info : RateLimitInfo) : Except ApiError (Option RateLimit) :=
  info.limit.elim (.ok none) ofAnnounced

end RateLimit
end TerraformCloud
