/-
  TerraformCloud/Proofs/Sending/Trace.lean
  ========================================
  **What a client does with the world while it sends a request.**

  `Link.traced` is a link that remembers every action that a call takes on it, with the
  states of the world before and after.  `Link.Sends` says what such a run can be: one
  constructor for each way a round can go, and only one of them goes on to another round.

  Every call is one of these runs, its trace is what a traced link remembers, and
  remembering changes nothing of the call (`send_isRun`).  So what holds of `Sends`, by
  induction, holds of all calls over all links.
-/
import TerraformCloud.Client.Send

namespace TerraformCloud

/-! ## 1. Answers -/

/-- The reply that an answer is, none for a connection that broke. -/
def Reply.ofAnswer : Option Http.Response → Reply
  | some r => .response r
  | none => .lost

def Outcome.ofAnswer : Option Http.Response → Outcome
  | some r => .response r.status r.fields
  | none => .lost

/-- What an answer means when no other attempt follows. -/
def finalResult : Option Http.Response → Except ApiError Http.Response
  | some r => checkResponse r
  | none => .error .connection

namespace Link

variable {σ : Type}

/-! ## 2. Traces -/

/-- What a client does with the world, from one state to another. -/
inductive Action (σ : Type) where
  | slot (interrupted : Bool) (before after : σ)
  | attempt (request : Http.Request) (reply : Reply) (before after : σ)
  | observe (event : RetryEvent) (before after : σ)
  | wait (delay : Duration) (interrupted : Bool) (before after : σ)

/-- The same link, with a memory of what is done with it. -/
def traced (link : Link σ) : Link (σ × List (Action σ)) :=
  { cancelled := fun s => link.cancelled s.1
    slot := fun s =>
      let (interrupted, after) := link.slot s.1
      (interrupted, after, s.2 ++ [.slot interrupted s.1 after])
    attempt := fun request s =>
      let (reply, after) := link.attempt request s.1
      (reply, after, s.2 ++ [.attempt request reply s.1 after])
    jitter := fun window s =>
      let (jitter, after) := link.jitter window s.1
      (jitter, after, s.2)
    observe := fun event s =>
      let after := link.observe event s.1
      (after, s.2 ++ [.observe event s.1 after])
    wait := fun delay s =>
      let (interrupted, after) := link.wait delay s.1
      (interrupted, after, s.2 ++ [.wait delay interrupted s.1 after]) }

/-! ## 3. Runs -/

section Runs

variable (link : Link σ) (policy : RetryPolicy) (request : Http.Request)

/-- An attempt that is made: nobody has cancelled, and the rate limit allows it. -/
structure Attempted (s : σ) (reply : Reply) (s₁ s₂ : σ) : Prop where
  uncancelled : link.cancelled s = false
  slot : link.slot s = (false, s₁)
  attempt : link.attempt request s₁ = (reply, s₂)

/-- The actions of an attempt. -/
def attempted (s : σ) (reply : Reply) (s₁ s₂ : σ) : List (Action σ) :=
  [.slot false s s₁, .attempt request reply s₁ s₂]

/-- An answer that calls for another attempt, up to the choice of the jitter. -/
structure Retryable (s : σ) (answer : Option Http.Response) (jitter : Duration)
    (s₁ s₂ s₃ : σ) : Prop where
  attempted : Attempted link request s (.ofAnswer answer) s₁ s₂
  uncancelled : link.cancelled s₂ = false
  retryable : policy.isRetryable (.ofAnswer answer) = true
  jitter : link.jitter policy.window s₂ = (jitter, s₃)

/-- A call from a state on, `retries` retries after it began and with `left` more
    allowed: its actions, its result and the state it ends in. -/
inductive Sends : Nat → Nat → σ → List (Action σ) → Except ApiError Http.Response → σ → Prop where
  | cancelled {left retries : Nat} {s : σ} (cancelled : link.cancelled s = true) :
      Sends left retries s [] (.error .cancelled) s
  | noSlot {left retries : Nat} {s s₁ : σ} (uncancelled : link.cancelled s = false)
      (slot : link.slot s = (true, s₁)) :
      Sends left retries s [.slot true s s₁] (.error .cancelled) s₁
  | noReply {left retries : Nat} {s s₁ s₂ : σ}
      (attempt : Attempted link request s .interrupted s₁ s₂) :
      Sends left retries s (attempted request s .interrupted s₁ s₂) (.error .cancelled) s₂
  /-- An answer arrives, but the caller has cancelled. -/
  | tooLate {left retries : Nat} {s s₁ s₂ : σ} {answer : Option Http.Response}
      (attempt : Attempted link request s (.ofAnswer answer) s₁ s₂)
      (cancelled : link.cancelled s₂ = true) :
      Sends left retries s (attempted request s (.ofAnswer answer) s₁ s₂) (.error .cancelled) s₂
  | final {left retries : Nat} {s s₁ s₂ : σ} {answer : Option Http.Response}
      (attempt : Attempted link request s (.ofAnswer answer) s₁ s₂)
      (uncancelled : link.cancelled s₂ = false)
      (last : policy.isRetryable (.ofAnswer answer) = false ∨ left = 0) :
      Sends left retries s (attempted request s (.ofAnswer answer) s₁ s₂) (finalResult answer) s₂
  | waitTooLong {left retries : Nat} {s s₁ s₂ s₃ : σ} {answer : Option Http.Response}
      {jitter : Duration} (again : Retryable link policy request s answer jitter s₁ s₂ s₃)
      (backoff : policy.backoff (retries + 1) (.ofAnswer answer) jitter = none) :
      Sends (left + 1) retries s (attempted request s (.ofAnswer answer) s₁ s₂)
        (.error .waitTooLong) s₃
  | noWait {left retries : Nat} {s s₁ s₂ s₃ s₄ : σ} {answer : Option Http.Response}
      {jitter delay : Duration} {event : RetryEvent}
      (again : Retryable link policy request s answer jitter s₁ s₂ s₃)
      (backoff : policy.backoff (retries + 1) (.ofAnswer answer) jitter = some delay)
      (told : event = ⟨retries + 1, (Outcome.ofAnswer answer).status?, delay⟩)
      (wait : link.wait delay (link.observe event s₃) = (true, s₄)) :
      Sends (left + 1) retries s
        (attempted request s (.ofAnswer answer) s₁ s₂ ++
          [.observe event s₃ (link.observe event s₃),
            .wait delay true (link.observe event s₃) s₄])
        (.error .cancelled) s₄
  | retry {left retries : Nat} {s s₁ s₂ s₃ s₄ s' : σ} {answer : Option Http.Response}
      {jitter delay : Duration} {event : RetryEvent} {later : List (Action σ)}
      {result : Except ApiError Http.Response}
      (again : Retryable link policy request s answer jitter s₁ s₂ s₃)
      (backoff : policy.backoff (retries + 1) (.ofAnswer answer) jitter = some delay)
      (told : event = ⟨retries + 1, (Outcome.ofAnswer answer).status?, delay⟩)
      (wait : link.wait delay (link.observe event s₃) = (false, s₄))
      (rest : Sends left (retries + 1) s₄ later result s') :
      Sends (left + 1) retries s
        (attempted request s (.ofAnswer answer) s₁ s₂ ++
          [.observe event s₃ (link.observe event s₃),
            .wait delay false (link.observe event s₃) s₄] ++ later)
        result s'

end Runs

/-! ## 4. Every call is a run -/

variable {link : Link σ} {policy : RetryPolicy} {request : Http.Request}

/-- A call is a run, and over a link with a memory it is the same call. -/
def IsRun (link : Link σ) (policy : RetryPolicy) (request : Http.Request)
    (left retries : Nat) (s : σ) (call : Result σ Http.Response)
    (recorded : List (Action σ) → Result (σ × List (Action σ)) Http.Response) : Prop :=
  ∃ trace result s', Sends link policy request left retries s trace result s' ∧
    call = (result, s') ∧ ∀ log, recorded log = (result, s', log ++ trace)

/-- The same, from the moment on when an answer is there. -/
def IsConcluded (link : Link σ) (policy : RetryPolicy) (request : Http.Request)
    (left retries : Nat) (s : σ) : Prop :=
  ∀ answer s₁ s₂, Attempted link request s (.ofAnswer answer) s₁ s₂ →
    IsRun link policy request left retries s
      (sendFrom.conclude link policy request left retries (.ofAnswer answer)
        (finalResult answer) s₂)
      fun log => sendFrom.conclude link.traced policy request left retries (.ofAnswer answer)
        (finalResult answer) (s₂, log ++ attempted request s (.ofAnswer answer) s₁ s₂)

theorem isRun_of_isConcluded {left retries : Nat} {s : σ}
    (concluded : IsConcluded link policy request left retries s) :
    IsRun link policy request left retries s (link.sendFrom policy request left retries s)
      fun log => link.traced.sendFrom policy request left retries (s, log) := by
  cases hcancelled : link.cancelled s with
  | true =>
    exact ⟨_, _, _, .cancelled hcancelled, by simp [sendFrom, hcancelled],
      fun log => by simp [sendFrom, traced, hcancelled]⟩
  | false =>
    rcases hslot : link.slot s with ⟨_ | _, s₁⟩
    · rcases hattempt : link.attempt request s₁ with ⟨reply, s₂⟩
      have hattempted : Attempted link request s reply s₁ s₂ := ⟨hcancelled, hslot, hattempt⟩
      cases reply with
      | interrupted =>
        exact ⟨_, _, _, .noReply hattempted, by simp [sendFrom, hcancelled, hslot, hattempt],
          fun log => by simp [sendFrom, traced, hcancelled, hslot, hattempt, attempted]⟩
      | response r =>
        obtain ⟨trace, result, s', hsends, hcall, hlog⟩ := concluded (some r) s₁ s₂ hattempted
        refine ⟨trace, result, s', hsends, ?_, fun log => ?_⟩
        · rw [← hcall]
          simp [sendFrom, hcancelled, hslot, hattempt, Outcome.ofAnswer, finalResult]
        · rw [← hlog log]
          simp [sendFrom, traced, hcancelled, hslot, hattempt, attempted, Reply.ofAnswer,
            Outcome.ofAnswer, finalResult]
      | lost =>
        obtain ⟨trace, result, s', hsends, hcall, hlog⟩ := concluded none s₁ s₂ hattempted
        refine ⟨trace, result, s', hsends, ?_, fun log => ?_⟩
        · rw [← hcall]
          simp [sendFrom, hcancelled, hslot, hattempt, Outcome.ofAnswer, finalResult]
        · rw [← hlog log]
          simp [sendFrom, traced, hcancelled, hslot, hattempt, attempted, Reply.ofAnswer,
            Outcome.ofAnswer, finalResult]
    · exact ⟨_, _, _, .noSlot hcancelled hslot, by simp [sendFrom, hcancelled, hslot],
        fun log => by simp [sendFrom, traced, hcancelled, hslot]⟩

/-- No attempt follows an answer when no retry is left. -/
theorem isConcluded_zero (retries : Nat) (s : σ) : IsConcluded link policy request 0 retries s := by
  intro answer s₁ s₂ hattempted
  cases hcancelled : link.cancelled s₂ with
  | true =>
    exact ⟨_, _, _, .tooLate hattempted hcancelled,
      by simp [sendFrom.conclude, RetryPolicy.decide, hcancelled],
      fun log => by simp [sendFrom.conclude, traced, RetryPolicy.decide, hcancelled]⟩
  | false =>
    refine ⟨_, _, _, .final hattempted hcancelled (.inr rfl), ?_, fun log => ?_⟩
    · cases hretryable : policy.isRetryable (.ofAnswer answer) <;>
        simp [sendFrom.conclude, RetryPolicy.decide, hcancelled, hretryable]
    · cases hretryable : policy.isRetryable (.ofAnswer answer) <;>
        simp [sendFrom.conclude, traced, RetryPolicy.decide, hcancelled, hretryable]

/-- Otherwise the rest of the call is a run. -/
theorem isConcluded_succ {left : Nat} (rest : ∀ retries s,
      IsRun link policy request left retries s (link.sendFrom policy request left retries s)
        fun log => link.traced.sendFrom policy request left retries (s, log))
    (retries : Nat) (s : σ) : IsConcluded link policy request (left + 1) retries s := by
  intro answer s₁ s₂ hattempted
  cases hcancelled : link.cancelled s₂ with
  | true =>
    exact ⟨_, _, _, .tooLate hattempted hcancelled,
      by simp [sendFrom.conclude, RetryPolicy.decide, hcancelled],
      fun log => by simp [sendFrom.conclude, traced, RetryPolicy.decide, hcancelled]⟩
  | false =>
    cases hretryable : policy.isRetryable (.ofAnswer answer) with
    | false =>
      exact ⟨_, _, _, .final hattempted hcancelled (.inl hretryable),
        by simp [sendFrom.conclude, RetryPolicy.decide, hcancelled, hretryable],
        fun log => by simp [sendFrom.conclude, traced, RetryPolicy.decide, hcancelled, hretryable]⟩
    | true =>
      rcases hjitter : link.jitter policy.window s₂ with ⟨jitter, s₃⟩
      have hagain : Retryable link policy request s answer jitter s₁ s₂ s₃ :=
        ⟨hattempted, hcancelled, hretryable, hjitter⟩
      cases hbackoff : policy.backoff (retries + 1) (.ofAnswer answer) jitter with
      | none =>
        exact ⟨_, _, _, .waitTooLong hagain hbackoff,
          by
            simp [sendFrom.conclude, RetryPolicy.decide, hcancelled, hretryable, hjitter,
              hbackoff],
          fun log => by
            simp [sendFrom.conclude, traced, RetryPolicy.decide, hcancelled, hretryable, hjitter,
              hbackoff]⟩
      | some delay =>
        rcases hwait : link.wait delay (link.observe
            ⟨retries + 1, (Outcome.ofAnswer answer).status?, delay⟩ s₃) with ⟨_ | _, s₄⟩
        · obtain ⟨trace, result, s', hsends, hcall, hlog⟩ := rest (retries + 1) s₄
          refine ⟨_, _, _, .retry hagain hbackoff rfl hwait hsends, ?_, fun log => ?_⟩
          · rw [← hcall]
            simp [sendFrom.conclude, RetryPolicy.decide, hcancelled, hretryable, hjitter, hbackoff,
              hwait]
          · rw [← List.append_assoc, ← hlog]
            simp [sendFrom.conclude, traced, RetryPolicy.decide, hcancelled, hretryable, hjitter,
              hbackoff, hwait]
        · exact ⟨_, _, _, .noWait hagain hbackoff rfl hwait,
            by simp [sendFrom.conclude, RetryPolicy.decide, hcancelled, hretryable, hjitter,
              hbackoff, hwait],
            fun log => by
              simp [sendFrom.conclude, traced, RetryPolicy.decide, hcancelled, hretryable, hjitter,
                hbackoff, hwait]⟩

/-- **Every call is a run**, and a memory changes nothing of it. -/
theorem sendFrom_isRun (link : Link σ) (policy : RetryPolicy) (request : Http.Request)
    (left retries : Nat) (s : σ) :
    IsRun link policy request left retries s (link.sendFrom policy request left retries s)
      fun log => link.traced.sendFrom policy request left retries (s, log) := by
  induction left generalizing retries s with
  | zero => exact isRun_of_isConcluded (isConcluded_zero retries s)
  | succ left ih => exact isRun_of_isConcluded (isConcluded_succ ih retries s)

/-- A request that can be sent: what the call does, as a run. -/
theorem send_isRun (link : Link σ) {c : Client} {r : ApiRequest} (wire : r.wire c = .ok request)
    (s : σ) :
    IsRun link c.retry request c.retry.maxRetries 0 s (link.send c r s)
      fun log => link.traced.send c r (s, log) := by
  obtain ⟨trace, result, s', hsends, hcall, hlog⟩ :=
    sendFrom_isRun link c.retry request c.retry.maxRetries 0 s
  refine ⟨trace, result, s', hsends, ?_, fun log => ?_⟩
  · rw [← hcall, send, wire]
  · rw [← hlog]
    simp only [send, wire]

/-! ## 5. What is sent -/

/-- The requests of a trace. -/
def sentRequests (trace : List (Action σ)) : List Http.Request :=
  trace.filterMap fun
    | .attempt request .. => some request
    | _ => none

/-- **A call sends one request**, however often. -/
theorem Sends.eq_of_mem_sentRequests {left retries : Nat} {s s' : σ} {trace : List (Action σ)}
    {result : Except ApiError Http.Response}
    (sends : Sends link policy request left retries s trace result s') :
    ∀ sent ∈ sentRequests trace, sent = request := by
  induction sends with
  | cancelled _ => exact List.forall_mem_nil _
  | noSlot _ _ => exact List.forall_mem_nil _
  | noReply _ => exact fun _ h => List.mem_singleton.1 h
  | tooLate _ _ => exact fun _ h => List.mem_singleton.1 h
  | final _ _ _ => exact fun _ h => List.mem_singleton.1 h
  | waitTooLong _ _ => exact fun _ h => List.mem_singleton.1 h
  | noWait _ _ _ _ => exact fun _ h => List.mem_singleton.1 h
  | retry _ _ _ _ _ ih =>
    intro sent hsent
    rw [sentRequests, List.filterMap_append, List.filterMap_append, List.mem_append] at hsent
    rcases hsent with hsent | hsent
    · exact List.mem_singleton.1 hsent
    · exact ih sent hsent

/-- It is sent unless the caller cancels before the rate limit allows it. -/
theorem Sends.mem_sentRequests {left retries : Nat} {s s' : σ} {trace : List (Action σ)}
    {result : Except ApiError Http.Response}
    (sends : Sends link policy request left retries s trace result s')
    (uncancelled : link.cancelled s = false) (slot : (link.slot s).1 = false) :
    request ∈ sentRequests trace := by
  cases sends with
  | cancelled hcancelled => rw [uncancelled] at hcancelled; cases hcancelled
  | noSlot _ hslot => rw [hslot] at slot; cases slot
  | _ => exact List.mem_cons_self

theorem sentRequests_append (log trace : List (Action σ)) :
    sentRequests (log ++ trace) = sentRequests log ++ sentRequests trace :=
  List.filterMap_append

/-- What a call adds to a memory is its own request. -/
theorem mem_sentRequests_send {link : Link σ} {c : Client} {r : ApiRequest} {s : σ}
    {log : List (Action σ)} {sent : Http.Request}
    (h : sent ∈ sentRequests (link.traced.send c r (s, log)).2.2) :
    sent ∈ sentRequests log ∨ r.wire c = .ok sent := by
  cases hwire : r.wire c with
  | error e =>
    rw [send, hwire] at h
    exact Or.inl h
  | ok request =>
    obtain ⟨trace, result, s', hsends, -, hlog⟩ := send_isRun link hwire s
    simp only [hlog, sentRequests_append, List.mem_append] at h
    rcases h with h | h
    · exact Or.inl h
    · rw [hsends.eq_of_mem_sentRequests sent h]
      exact Or.inr rfl

end Link
end TerraformCloud
