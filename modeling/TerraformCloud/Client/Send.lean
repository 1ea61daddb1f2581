/-
  TerraformCloud/Client/Send.lean
  ===============================
  **Sending a request until its outcome is final.**

  What a client needs of the world is a `Link`: attempts go over it, waits happen on
  it, and it knows whether the caller has cancelled.  The link works on a state of any
  type, so the same loop runs against a script, a simulated server or a list of
  outcomes, and says the same about all of them.  Before an attempt, while it is under
  way, before its outcome is judged and during a wait, cancellation ends the call.
-/
import TerraformCloud.Client

namespace TerraformCloud

/-- What comes back from one attempt. -/
inductive Reply where
  | response (r : Http.Response)
  /-- The connection broke. -/
  | lost
  /-- The caller cancelled before anything came back. -/
  | interrupted
deriving DecidableEq, Repr

/-- The world as a client sees it, over a state `σ`.  Whatever may be interrupted says
    whether it was. -/
structure Link (σ : Type) where
  cancelled : σ → Bool
  /-- Waits until the rate limit allows another attempt. -/
  slot : σ → Bool × σ
  attempt : Http.Request → σ → Reply × σ
  /-- Chooses a jitter inside a window. -/
  jitter : Duration → σ → Duration × σ
  /-- Tells an observer of a retry. -/
  observe : RetryEvent → σ → σ
  wait : Duration → σ → Bool × σ

/-- The result of an action on the world. -/
abbrev Result (σ α : Type) := Except ApiError α × σ

/-- What a final response means: itself, or an error. -/
def checkResponse (r : Http.Response) : Except ApiError Http.Response :=
  if Http.isSuccess r.status then .ok r else .error (.ofResponse r.status (r.body.getD []))

/-- The bytes of a response, if all of them arrived. -/
def bodyOf (r : Http.Response) : Except ApiError Bytes :=
  match r.body with
  | some bytes => .ok bytes
  | none => .error .connection

namespace Link

variable {σ : Type}

/-- Sends a request; `retries` were made so far, and `left` more are allowed. -/
def sendFrom (link : Link σ) (policy : RetryPolicy) (request : Http.Request)
    (left retries : Nat) (s : σ) : Result σ Http.Response :=
  if link.cancelled s then (.error .cancelled, s)
  else
    match link.slot s with
    | (true, s) => (.error .cancelled, s)
    | (false, s) =>
      match link.attempt request s with
      | (.interrupted, s) => (.error .cancelled, s)
      | (.response r, s) => conclude (.response r.status r.fields) (checkResponse r) s
      | (.lost, s) => conclude .lost (.error .connection) s
where
  /-- Judges an outcome whose meaning, should it be final, is `final`. -/
  conclude (outcome : Outcome) (final : Except ApiError Http.Response) (s : σ) :
      Result σ Http.Response :=
    match policy.decide (link.cancelled s) outcome with
    | .cancelled => (.error .cancelled, s)
    | .stop => (final, s)
    | .retry =>
      match left with
      | 0 => (final, s)
      | more + 1 =>
        let (jitter, s) := link.jitter policy.window s
        match policy.backoff (retries + 1) outcome jitter with
        | none => (.error .waitTooLong, s)
        | some delay =>
          let s := link.observe ⟨retries + 1, outcome.status?, delay⟩ s
          match link.wait delay s with
          | (true, s) => (.error .cancelled, s)
          | (false, s) => sendFrom link policy request more (retries + 1) s

/-- Sends a request and gives the response that ends it. -/
def send (link : Link σ) (c : Client) (r : ApiRequest) (s : σ) : Result σ Http.Response :=
  match r.wire c with
  | .error e => (.error e, s)
  | .ok request => link.sendFrom c.retry request c.retry.maxRetries 0 s

/-- Sends a request and reads what its response says. -/
def fetch {α : Type} (link : Link σ) (c : Client) (r : ApiRequest)
    (read : Http.Response → Except ApiError α) (s : σ) : Result σ α :=
  match link.send c r s with
  | (.error e, s) => (.error e, s)
  | (.ok response, s) => (read response, s)

/-! ### What the service says about itself -/

structure Metadata where
  apiVersion : Option String
  limit : Option RateLimit
deriving DecidableEq, Repr

def Metadata.unknown : Metadata := ⟨none, none⟩

/-- What a response to a ping says. -/
def Metadata.ofResponse (r : Http.Response) : Except ApiError Metadata :=
  (RateLimit.ofInfo (.ofFields r.fields)).map fun limit =>
    ⟨Http.plainValue? r.fields "tfp-api-version", limit⟩

def ping (link : Link σ) (c : Client) (s : σ) : Result σ Metadata :=
  match c.request .api .get "ping" with
  | .error e => (.error e, s)
  | .ok r => link.fetch c r Metadata.ofResponse s

end Link
end TerraformCloud
