/-
  TerraformCloud/Proofs/Sending/Retries.lean
  ==========================================
  **How often a request is sent, and what happens in between.**

  Nobody cancels, attempts are not limited, and every attempt gets the next answer of a
  stream.  When jitter has no window, all that a call does follows from the stream: it
  makes attempts up to the first answer that is not retryable, or up to the ceiling, and
  before every other attempt it tells the observer of a wait and waits.

  A call from the middle on does the same from the middle of the stream on
  (`Sends.deeds_eq`); that is the statement that goes through by induction.
-/
import Mathlib
import TerraformCloud.Proofs.Sending.Trace
import TerraformCloud.Rehearsal

namespace TerraformCloud

/-! ## 1. Waits without jitter -/

namespace RetryPolicy

variable {p : RetryPolicy}

/-- The wait before a retry when jitter has no window: after "too many requests" as long
    as the service says, and growing with the number of retries otherwise. -/
def plainDelay (p : RetryPolicy) (retry : Nat) : Outcome → Duration
  | .lost => p.waitMin.scale retry
  | .response status fields =>
    if status = tooManyRequests then
      Duration.max p.waitMin ((RateLimitInfo.ofFields fields).resetAfter.getD .zero)
    else p.waitMin.scale retry

theorem add_zero (d : Duration) : d.add? .zero = some d := by
  have h : d.nanos + Duration.zero.nanos = d.nanos := Nat.add_zero _
  simp [Duration.add?, Duration.ofNanos?, h, d.le_longest]

theorem scale_zero (n : Nat) : Duration.zero.scale n = .zero := by
  apply Duration.ext
  simp [Duration.scale, Duration.ofNanos, Duration.zero]

theorem resetWait_eq (p : RetryPolicy) (fields : Http.Fields) :
    p.resetWait fields =
      Duration.max p.waitMin ((RateLimitInfo.ofFields fields).resetAfter.getD .zero) := by
  unfold resetWait
  cases (RateLimitInfo.ofFields fields).resetAfter with
  | some reset => rfl
  | none => simp [Duration.max, Duration.zero]

theorem backoff_zero (p : RetryPolicy) {retry : Nat} (hretry : 1 ≤ retry) (outcome : Outcome) :
    p.backoff retry outcome .zero = some (p.plainDelay retry outcome) := by
  have hgrowing : (p.waitMin.scale (max retry 1)).add? (Duration.zero.scale (max retry 1)) =
      some (p.waitMin.scale retry) := by
    rw [scale_zero, add_zero, Nat.max_eq_left hretry]
  cases outcome with
  | lost => exact hgrowing
  | response status fields =>
    simp only [backoff, plainDelay]
    split
    · rw [add_zero, resetWait_eq]
    · exact hgrowing

/-- A jitter from an empty window. -/
theorem jitter_eq_zero (hwindow : p.waitMax.nanos ≤ p.waitMin.nanos) {jitter : Duration}
    (hjitter : jitter.nanos ≤ p.window.nanos) : jitter = .zero := by
  apply Duration.ext
  have hzero : p.window.nanos = 0 := Nat.sub_eq_zero_of_le hwindow
  exact Nat.eq_zero_of_le_zero (hzero ▸ hjitter)

end RetryPolicy

/-! ## 2. Streams of answers -/

namespace Link

variable {σ : Type}

/-- A link on which nobody cancels and nothing is limited.  Attempts of the request get the
    answers of a stream in order, `count` says how many were given, and only waits move the
    clock. -/
structure Replays (link : Link σ) (request : Http.Request) (answers : Nat → Option Http.Response)
    (count clock : σ → Nat) : Prop where
  uncancelled : ∀ s, link.cancelled s = false
  slot : ∀ s, (link.slot s).1 = false ∧ count (link.slot s).2 = count s ∧
    clock (link.slot s).2 = clock s
  attempt : ∀ s, (link.attempt request s).1 = .ofAnswer (answers (count s + 1)) ∧
    count (link.attempt request s).2 = count s + 1 ∧ clock (link.attempt request s).2 = clock s
  jitter : ∀ window s, (link.jitter window s).1.nanos ≤ window.nanos ∧
    count (link.jitter window s).2 = count s ∧ clock (link.jitter window s).2 = clock s
  observe : ∀ event s, count (link.observe event s) = count s ∧
    clock (link.observe event s) = clock s
  wait : ∀ delay s, (link.wait delay s).1 = false ∧ count (link.wait delay s).2 = count s ∧
    clock (link.wait delay s).2 = clock s + delay.nanos

/-- What a call does, apart from asking the rate limit. -/
inductive Deed where
  | sent (request : Http.Request)
  | told (event : RetryEvent)
  | waited (delay : Duration)

def Action.deed? : Action σ → Option Deed
  | .slot .. => none
  | .attempt request .. => some (.sent request)
  | .observe event .. => some (.told event)
  | .wait delay .. => some (.waited delay)

section Stream

variable (policy : RetryPolicy) (request : Http.Request) (answers : Nat → Option Http.Response)

/-- Whether no attempt follows the one with a number. -/
def IsLast (i : Nat) : Prop :=
  policy.isRetryable (.ofAnswer (answers i)) = false ∨ i = policy.maxRetries + 1

instance (i : Nat) : Decidable (IsLast policy answers i) := inferInstanceAs (Decidable (_ ∨ _))

/-- The wait behind the attempt with a number. -/
def delayAfter (i : Nat) : Duration := policy.plainDelay i (.ofAnswer (answers i))

/-- What is done from one attempt to the next. -/
def retryDeeds (i : Nat) : List Deed :=
  [.sent request,
    .told ⟨i, (Outcome.ofAnswer (answers i)).status?, delayAfter policy answers i⟩,
    .waited (delayAfter policy answers i)]

end Stream

/-! ## 3. Calls -/

section Calls

variable {link : Link σ} {policy : RetryPolicy} {request : Http.Request}
  {answers : Nat → Option Http.Response} {count clock : σ → Nat}

theorem ofAnswer_injective {a b : Option Http.Response} (h : Reply.ofAnswer a = .ofAnswer b) :
    a = b := by
  cases a <;> cases b <;> cases h <;> rfl

theorem interrupted_ne_ofAnswer {a : Option Http.Response} : Reply.interrupted ≠ .ofAnswer a := by
  cases a <;> exact Reply.noConfusion

theorem Replays.attempted (h : Replays link request answers count clock) {s s₁ s₂ : σ} {reply : Reply}
    (hattempt : Attempted link request s reply s₁ s₂) :
    reply = .ofAnswer (answers (count s + 1)) ∧ count s₂ = count s + 1 ∧ clock s₂ = clock s := by
  obtain ⟨-, hcount, hclock⟩ := h.slot s
  rw [hattempt.slot] at hcount hclock
  have hreply := h.attempt s₁
  rw [hattempt.attempt, hcount, hclock] at hreply
  exact hreply

/-- Behind a retryable answer: the next one is due, and no time has passed. -/
theorem Replays.retryable (h : Replays link request answers count clock)
    (hwindow : policy.waitMax.nanos ≤ policy.waitMin.nanos) {s s₁ s₂ s₃ : σ}
    {answer : Option Http.Response} {jitter : Duration}
    (again : Retryable link policy request s answer jitter s₁ s₂ s₃) :
    answer = answers (count s + 1) ∧ jitter = .zero ∧ count s₃ = count s + 1 ∧
      clock s₃ = clock s := by
  obtain ⟨hreply, hcount, hclock⟩ := h.attempted again.attempted
  obtain ⟨hjitter, hcount', hclock'⟩ := h.jitter policy.window s₂
  rw [again.jitter] at hjitter hcount' hclock'
  exact ⟨ofAnswer_injective hreply, RetryPolicy.jitter_eq_zero hwindow hjitter,
    hcount'.trans hcount, hclock'.trans hclock⟩

/-- **What a call does from the middle on.**  It makes `m` retries and then one more
    attempt, whose answer is the result. -/
theorem Sends.deeds_eq (h : Replays link request answers count clock)
    (hwindow : policy.waitMax.nanos ≤ policy.waitMin.nanos) {left retries : Nat} {s s' : σ}
    {trace : List (Action σ)} {result : Except ApiError Http.Response}
    (sends : Sends link policy request left retries s trace result s')
    (hcount : count s = retries) :
    ∃ m, (∀ i, retries < i → i ≤ retries + m → policy.isRetryable (.ofAnswer (answers i)) = true) ∧
      m ≤ left ∧
      (policy.isRetryable (.ofAnswer (answers (retries + m + 1))) = false ∨ m = left) ∧
      trace.filterMap Action.deed? =
        (List.range' (retries + 1) m).flatMap (retryDeeds policy request answers) ++
          [.sent request] ∧
      result = finalResult (answers (retries + m + 1)) ∧
      clock s' = clock s +
        ((List.range' (retries + 1) m).map fun i => (delayAfter policy answers i).nanos).sum := by
  induction sends with
  | cancelled cancelled => exact absurd cancelled (by simp [h.uncancelled])
  | @noSlot left retries s s₁ uncancelled slot =>
    have hfree := (h.slot s).1
    rw [slot] at hfree
    cases hfree
  | noReply attempt =>
    obtain ⟨hreply, -, -⟩ := h.attempted attempt
    exact absurd hreply interrupted_ne_ofAnswer
  | tooLate attempt cancelled => exact absurd cancelled (by simp [h.uncancelled])
  | final attempt uncancelled last =>
    obtain ⟨hreply, -, hclock⟩ := h.attempted attempt
    have hanswer := ofAnswer_injective hreply
    subst hcount hanswer
    refine ⟨0, fun i hlo hhi => absurd hlo (by omega), Nat.zero_le _, ?_, rfl, rfl, hclock⟩
    exact last.imp id Eq.symm
  | waitTooLong again backoff =>
    obtain ⟨-, rfl, -, -⟩ := h.retryable hwindow again
    rw [RetryPolicy.backoff_zero policy (Nat.le_add_left 1 _)] at backoff
    cases backoff
  | @noWait left retries s s₁ s₂ s₃ s₄ answer jitter delay event again backoff told wait =>
    have hwait := (h.wait delay (link.observe event s₃)).1
    rw [wait] at hwait
    cases hwait
  | @retry left retries s s₁ s₂ s₃ s₄ s' answer jitter delay event later result again backoff told
      wait rest ih =>
    obtain ⟨rfl, rfl, hcount₃, hclock₃⟩ := h.retryable hwindow again
    subst hcount
    rw [RetryPolicy.backoff_zero policy (Nat.le_add_left 1 _), Option.some.injEq] at backoff
    obtain ⟨hcount₄, hclock₄⟩ := h.observe event s₃
    obtain ⟨-, hcount₅, hclock₅⟩ := h.wait delay (link.observe event s₃)
    rw [wait] at hcount₅ hclock₅
    obtain ⟨m, hearlier, hleft, hlast, hdeeds, hresult, hclock⟩ :=
      ih (hcount₅.trans (hcount₄.trans hcount₃))
    refine ⟨m + 1, fun i hlo hhi => ?_, by omega, ?_, ?_, ?_, ?_⟩
    · rcases Nat.eq_or_lt_of_le hlo with hi | hi
      · rw [← hi]
        exact again.retryable
      · exact hearlier i hi (by omega)
    · rw [← Nat.add_assoc, Nat.add_right_comm (count s) m 1]
      exact hlast.imp id (congrArg (· + 1))
    · rw [List.filterMap_append, hdeeds, List.range'_succ, List.flatMap_cons, told, ← backoff]
      rfl
    · rw [hresult, ← Nat.add_assoc, Nat.add_right_comm (count s) m 1]
    · rw [hclock, hclock₅, hclock₄, hclock₃, ← backoff, List.range'_succ, List.map_cons,
        List.sum_cons, Nat.add_assoc]
      rfl

/-- **What a call does.**  It makes `n` attempts, where `n` is the least number of a last
    attempt, with a wait after every other one; the last answer alone is the result. -/
theorem send_deeds (h : Replays link request answers count clock) {c : Client} {r : ApiRequest}
    (hwire : r.wire c = .ok request) (hwindow : c.retry.waitMax.nanos ≤ c.retry.waitMin.nanos)
    {s : σ} (hcount : count s = 0) :
    ∃ n trace s', 1 ≤ n ∧ IsLast c.retry answers n ∧
      (∀ i, 1 ≤ i → i < n → ¬ IsLast c.retry answers i) ∧
      link.send c r s = (finalResult (answers n), s') ∧
      (∀ log, link.traced.send c r (s, log) = (finalResult (answers n), s', log ++ trace)) ∧
      trace.filterMap Action.deed? =
        (List.range' 1 (n - 1)).flatMap (retryDeeds c.retry request answers) ++ [.sent request] ∧
      clock s' = clock s +
        ((List.range' 1 (n - 1)).map fun i => (delayAfter c.retry answers i).nanos).sum := by
  obtain ⟨trace, result, s', hsends, hcall, hlog⟩ := send_isRun link hwire s
  obtain ⟨m, hearlier, hleft, hlast, hdeeds, rfl, hclock⟩ := hsends.deeds_eq h hwindow hcount
  rw [Nat.zero_add] at hearlier hlast hcall hlog
  refine ⟨m + 1, trace, s', Nat.le_add_left 1 m, hlast.imp id (congrArg (· + 1)), ?_, hcall, hlog,
    hdeeds, hclock⟩
  intro i hlo hhi hi
  rcases hi with hi | hi
  · rw [hearlier i (by omega) (by omega)] at hi
    cases hi
  · omega

end Calls
end Link

/-! ## 4. Rehearsed streams -/

/-- A peer that gives the answers of a stream, one for each request. -/
def Peer.streaming (answers : Nat → Option Http.Response) : Peer Nat := fun _ given =>
  match answers (given + 1) with
  | some r => (.response r, given + 1)
  | none => (.broken, given + 1)

/-- A rehearsal that nobody can interrupt, with an observer that only looks. -/
theorem Rehearsal.replays {request : Http.Request} (deliverable : request.isDeliverable = true)
    (answers : Nat → Option Http.Response) (observer : Option (RetryEvent → World Nat → World Nat))
    (looks : ∀ f ∈ observer, ∀ e w, (f e w).peer = w.peer ∧ (f e w).now = w.now) :
    Link.Replays (Rehearsal.link ⟨Peer.streaming answers, false, observer⟩) request
      (fun i => (answers i).map arrivedResponse) World.peer World.now where
  uncancelled _ := rfl
  slot _ := ⟨rfl, rfl, rfl⟩
  attempt w := by
    simp only [Rehearsal.link, World.attempt, deliverable, Peer.streaming]
    cases answers (w.peer + 1) with
    | some r => exact ⟨rfl, rfl, rfl⟩
    | none => exact ⟨rfl, rfl, rfl⟩
  jitter window w := ⟨Nat.zero_le _, rfl, rfl⟩
  observe event w := by
    cases observer with
    | none => exact ⟨rfl, rfl⟩
    | some f => exact looks f rfl event (Rehearsal.remember event w)
  wait delay w := by
    cases hcancel : w.cancelAt <;> simp [Rehearsal.link, World.wait, hcancel]

/-- A service that is down once: the second attempt is the last, a tenth of a second
    after the first. -/
theorem Link.send_deeds_of_one_failure :
    let url : Url := ⟨"https", some ⟨"", "", .name "tfe.test", none⟩, .segments ["api"], none, none⟩
    let c : Client := ⟨url, url, "", .empty, ⟨true, .ofMillis 100, .ofMillis 100, 5⟩⟩
    let r := (ApiRequest.ofAddress .get url).anonymous
    let answers : Nat → Option Http.Response := fun i =>
      if i = 1 then some ⟨503, [], some []⟩ else some ⟨200, [], some []⟩
    let link := Rehearsal.link ⟨Peer.streaming answers, false, none⟩
    ∃ request trace s', r.wire c = .ok request ∧
      link.traced.send c r (World.start 0, []) = (.ok ⟨200, [], some []⟩, s', trace) ∧
      trace.filterMap Action.deed? =
        [.sent request, .told ⟨1, some 503, .ofMillis 100⟩, .waited (.ofMillis 100),
          .sent request] ∧
      s'.now = 100000000 := by
  intro url c r answers link
  obtain ⟨n, trace, s', hpos, hlast, hfirst, -, hlog, hdeeds, hclock⟩ :=
    Link.send_deeds (Rehearsal.replays (by decide +kernel) answers none (by simp)) (c := c) (r := r) rfl
      (Nat.le_refl _) (s := World.start 0) rfl
  have hn : n = 2 := by
    rcases Nat.lt_trichotomy n 2 with h | h | h
    · obtain rfl : n = 1 := by omega
      exact absurd hlast (by decide)
    · exact h
    · exact absurd (Or.inl rfl) (hfirst 2 (by omega) h)
  subst hn
  have hdelay : delayAfter c.retry (fun i => (answers i).map arrivedResponse) 1 = .ofMillis 100 :=
    Duration.ext (by decide +kernel)
  refine ⟨_, trace, s', rfl, ?_, ?_, ?_⟩
  · rw [hlog]
    rfl
  · rw [hdeeds, ← hdelay]
    rfl
  · rw [hclock]
    decide +kernel

end TerraformCloud
