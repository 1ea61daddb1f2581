/-
  TerraformCloud/Retry.lean
  =========================
  **When a request is sent again, and how long to wait before.**

  A response that says "too many requests" is always followed by another attempt;
  faults of the server and lost connections only where the policy says so.  The wait
  grows linearly with the number of retries; after "too many requests" it is as long
  as the service asks for.  Jitter spreads the waits over a window, and is a parameter
  here, so that everything is a function.
-/
import TerraformCloud.Http.Message
import TerraformCloud.RateLimit

namespace TerraformCloud

/-- What became of one attempt. -/
inductive Outcome where
  | response (status : Http.Status) (fields : Http.Fields)
  /-- No answer arrived. -/
  | lost
deriving DecidableEq, Repr

def Outcome.status? : Outcome → Option Http.Status
  | response status _ => some status
  | lost => none

/-- What to do after an attempt. -/
inductive Verdict where
  | retry
  | stop
  | cancelled
deriving DecidableEq, Repr

structure RetryPolicy where
  retryServerErrors : Bool
  waitMin : Duration
  waitMax : Duration
  maxRetries : Nat
deriving DecidableEq, Repr

/-- What an observer is told before each wait. -/
structure RetryEvent where
  /-- The number of the retry, from one on. -/
  attempt : Nat
  status : Option Http.Status
  delay : Duration
deriving DecidableEq, Repr

namespace RetryPolicy

/-- The policy where nothing is configured. -/
def standard : RetryPolicy := ⟨false, .ofMillis 100, .ofMillis 400, 30⟩

/-- The status by which the service asks for fewer requests. -/
def tooManyRequests : Http.Status := 429

/-- Whether an outcome calls for another attempt. -/
def isRetryable (p : RetryPolicy) : Outcome → Bool
  | .lost => p.retryServerErrors
  | .response status _ =>
    status = tooManyRequests || (p.retryServerErrors && Http.isServerError status)

/-- What to do after an attempt; cancellation goes first. -/
def decide (p : RetryPolicy) (cancelled : Bool) (outcome : Outcome) : Verdict :=
  if cancelled then .cancelled else if p.isRetryable outcome then .retry else .stop

/-- The width of the window that jitter is taken from. -/
def window (p : RetryPolicy) : Duration := p.waitMax.monus p.waitMin

/-- The wait after "too many requests": at least the shortest wait and at least as
    long as the service says. -/
def resetWait (p : RetryPolicy) (fields : Http.Fields) : Duration :=
  match (RateLimitInfo.ofFields fields).resetAfter with
  | some reset => Duration.max p.waitMin reset
  | none => p.waitMin

/-- The wait before retry number `attempt`, given a jitter inside the window.  There
    is none when the sum of wait and jitter is too long for a duration. -/
def backoff (p : RetryPolicy) (attempt : Nat) (outcome : Outcome) (jitter : Duration) :
    Option Duration :=
  let growing :=
    let n := max attempt 1
    (p.waitMin.scale n).add? (jitter.scale n)
  match outcome with
  | .response status fields =>
    if status = tooManyRequests then (p.resetWait fields).add? jitter else growing
  | .lost => growing

end RetryPolicy
end TerraformCloud
