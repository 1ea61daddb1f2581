/-
  TerraformCloud/Proofs/Sending/Cancelled.lean
  ============================================
  **What is still done once the caller has cancelled.**

  The caller may cancel at any moment: before a call, while it waits for the rate limit
  or for an answer, while the observer is told, or during a wait.  An action that can be
  interrupted ends at the moment of cancellation at the latest.  When it would have ended
  at that very moment anyway, two things are ready at once, and it may report either: a
  slot may be granted, an answer may arrive and a wait may be over on a token that is
  cancelled by then.

  Whatever is reported, a call does at most one more thing, which takes no time, and
  says that it was cancelled.  That one thing can be a request: a call does not look at
  the token again once it has a slot, so a request is sent on a cancelled token exactly
  if a slot is granted on one.
-/
import TerraformCloud.Proofs.Sending.Trace
import TerraformCloud.Rehearsal

namespace TerraformCloud

namespace Link

variable {σ : Type}

/-! ## 1. Links with a token -/

section Laws

variable (clock : σ → Nat) (moment : σ → Option Nat)

/-- From one state to a later one.  The caller cancels once and for all, and not in the
    past. -/
structure Goes (s s' : σ) : Prop where
  forward : clock s ≤ clock s'
  kept : ∀ t, moment s = some t → moment s' = some t
  since : moment s = none → ∀ t, moment s' = some t → clock s ≤ t

/-- From one state to a later one, waiting for something or for cancellation.  Either may
    be `reported` when both are there. -/
structure Awaits (interrupted : Prop) (s s' : σ) : Prop extends Goes clock moment s s' where
  prompt : ∀ t, moment s' = some t → clock s' ≤ max (clock s) t
  reported : interrupted → (moment s').isSome

/-- A link whose caller holds a token that was cancelled at a `moment`, or is not yet. -/
structure Cancellable (link : Link σ) : Prop where
  cancelled : ∀ s, link.cancelled s = (moment s).isSome
  past : ∀ s t, moment s = some t → t ≤ clock s
  slot : ∀ s, Awaits clock moment ((link.slot s).1 = true) s (link.slot s).2
  attempt : ∀ request s,
    Awaits clock moment ((link.attempt request s).1 = .interrupted) s (link.attempt request s).2
  jitter : ∀ window s, clock (link.jitter window s).2 = clock s ∧
    moment (link.jitter window s).2 = moment s
  observe : ∀ event s, Goes clock moment s (link.observe event s)
  wait : ∀ delay s, Awaits clock moment ((link.wait delay s).1 = true) s (link.wait delay s).2

end Laws

/-! ## 2. Actions -/

namespace Action

def before : Action σ → σ
  | .slot _ s _ => s
  | .attempt _ _ s _ => s
  | .observe _ s _ => s
  | .wait _ _ s _ => s

/-- What an action may be, given the moment of cancellation.  Nobody is told of a retry
    and no slot is asked for on a cancelled token.  No attempt begins after that moment:
    if the token is cancelled at all, then at the instant at which the slot was granted.
    A wait on a cancelled token takes no time. -/
def Respects (clock : σ → Nat) (moment : σ → Option Nat) : Action σ → Prop
  | .slot _ s _ => moment s = none
  | .attempt _ _ s s' => ∀ t, moment s = some t → clock s = t ∧ clock s' = t
  | .observe _ s _ => moment s = none
  | .wait _ _ s s' => ∀ t, moment s = some t → clock s' = clock s

end Action

/-! ## 3. Calls -/

section Calls

variable {link : Link σ} {policy : RetryPolicy} {request : Http.Request} {clock : σ → Nat}
  {moment : σ → Option Nat}

theorem Cancellable.moment_eq_none (h : Cancellable clock moment link) {s : σ}
    (uncancelled : link.cancelled s = false) : moment s = none := by
  rw [h.cancelled] at uncancelled
  exact Option.isNone_iff_eq_none.1 (by simpa using uncancelled)

theorem Goes.moment_eq_none {s s' : σ} (h : Goes clock moment s s') (later : moment s' = none) :
    moment s = none := by
  cases hmoment : moment s with
  | none => rfl
  | some t =>
    rw [h.kept t hmoment] at later
    cases later

/-- What begins on a cancelled token is over at once. -/
theorem Awaits.instant {interrupted : Prop} {s s' : σ} (h : Awaits clock moment interrupted s s')
    {t : Nat} (ht : moment s = some t) (past : t ≤ clock s) : clock s' = clock s := by
  have hprompt := h.prompt t (h.kept t ht)
  rw [Nat.max_eq_left past] at hprompt
  exact Nat.le_antisymm hprompt h.forward

/-- What ends on a token that was cancelled meanwhile ends at the moment of cancellation. -/
theorem Awaits.clock_eq {interrupted : Prop} {s s' : σ} (h : Awaits clock moment interrupted s s')
    (before : moment s = none) {t : Nat} (ht : moment s' = some t) (past : t ≤ clock s') :
    clock s' = t := by
  have hprompt := h.prompt t ht
  rw [Nat.max_eq_right (h.since before t ht)] at hprompt
  exact Nat.le_antisymm hprompt past

theorem Cancellable.attempted (h : Cancellable clock moment link) {s s₁ s₂ : σ} {reply : Reply}
    (hattempt : Attempted link request s reply s₁ s₂) :
    moment s = none ∧ Awaits clock moment (reply = .interrupted) s₁ s₂ ∧
      ∀ a ∈ attempted request s reply s₁ s₂, a.Respects clock moment := by
  have hnone := h.moment_eq_none hattempt.uncancelled
  have hslot := h.slot s
  rw [hattempt.slot] at hslot
  have hreply := h.attempt request s₁
  rw [hattempt.attempt] at hreply
  refine ⟨hnone, hreply, ?_⟩
  intro a ha
  simp only [Link.attempted, List.mem_cons, List.not_mem_nil, or_false] at ha
  rcases ha with rfl | rfl
  · exact hnone
  · intro t ht
    have hclock := hslot.clock_eq hnone ht (h.past s₁ t ht)
    exact ⟨hclock, (hreply.instant ht (h.past s₁ t ht)).trans hclock⟩

/-- Up to the moment when the observer is told of a retry, nobody has cancelled. -/
theorem Cancellable.retryable (h : Cancellable clock moment link) {s s₁ s₂ s₃ : σ}
    {answer : Option Http.Response} {jitter : Duration}
    (again : Retryable link policy request s answer jitter s₁ s₂ s₃) :
    moment s₁ = none ∧ moment s₃ = none := by
  obtain ⟨-, hreply, -⟩ := h.attempted again.attempted
  have hnone := h.moment_eq_none again.uncancelled
  have hjitter := (h.jitter policy.window s₂).2
  rw [again.jitter] at hjitter
  exact ⟨hreply.moment_eq_none hnone, hjitter.trans hnone⟩

/-- The wait behind a retry takes no time when the observer has cancelled. -/
theorem Cancellable.waits (h : Cancellable clock moment link) {s₃ s₄ : σ} {event : RetryEvent}
    {delay : Duration} {interrupted : Bool} (hnone : moment s₃ = none)
    (wait : link.wait delay (link.observe event s₃) = (interrupted, s₄)) :
    Awaits clock moment (interrupted = true) (link.observe event s₃) s₄ ∧
    ∀ a ∈ [Action.observe event s₃ (link.observe event s₃),
      .wait delay interrupted (link.observe event s₃) s₄], a.Respects clock moment := by
  have hwait := h.wait delay (link.observe event s₃)
  rw [wait] at hwait
  refine ⟨hwait, ?_⟩
  intro a ha
  simp only [List.mem_cons, List.not_mem_nil, or_false] at ha
  rcases ha with rfl | rfl
  · exact hnone
  · exact fun t ht => hwait.instant ht (h.past _ t ht)

/-- A call on a cancelled token does nothing. -/
theorem Sends.of_cancelled {left retries : Nat} {s s' : σ} {trace : List (Action σ)}
    {result : Except ApiError Http.Response}
    (sends : Sends link policy request left retries s trace result s')
    (hcancelled : link.cancelled s = true) : trace = [] ∧ result = .error .cancelled := by
  have hno : ¬ link.cancelled s = false := by simp [hcancelled]
  cases sends with
  | cancelled _ => exact ⟨rfl, rfl⟩
  | noSlot uncancelled slot => exact absurd uncancelled hno
  | noReply attempt => exact absurd attempt.uncancelled hno
  | tooLate attempt _ => exact absurd attempt.uncancelled hno
  | final attempt _ _ => exact absurd attempt.uncancelled hno
  | waitTooLong again _ => exact absurd again.attempted.uncancelled hno
  | noWait again _ _ _ => exact absurd again.attempted.uncancelled hno
  | retry again _ _ _ _ => exact absurd again.attempted.uncancelled hno

/-- **Every action respects the moment of cancellation.** -/
theorem Sends.respects (h : Cancellable clock moment link) {left retries : Nat} {s s' : σ}
    {trace : List (Action σ)} {result : Except ApiError Http.Response}
    (sends : Sends link policy request left retries s trace result s') :
    ∀ a ∈ trace, a.Respects clock moment := by
  induction sends with
  | cancelled _ => exact List.forall_mem_nil _
  | noSlot uncancelled slot =>
    intro a ha
    rw [List.mem_singleton.1 ha]
    exact h.moment_eq_none uncancelled
  | noReply attempt => exact (h.attempted attempt).2.2
  | tooLate attempt _ => exact (h.attempted attempt).2.2
  | final attempt _ _ => exact (h.attempted attempt).2.2
  | waitTooLong again _ => exact (h.attempted again.attempted).2.2
  | noWait again _ _ wait =>
    exact List.forall_mem_append.2
      ⟨(h.attempted again.attempted).2.2, (h.waits (h.retryable again).2 wait).2⟩
  | retry again _ _ wait _ ih =>
    refine List.forall_mem_append.2 ⟨List.forall_mem_append.2 ⟨?_, ?_⟩, ih⟩
    · exact (h.attempted again.attempted).2.2
    · exact (h.waits (h.retryable again).2 wait).2

/-- A response that arrives on a cancelled token is not looked at. -/
theorem traced_send_of_tooLate {c : Client} {r : ApiRequest} (hwire : r.wire c = .ok request)
    {s s₁ s₂ : σ} {response : Http.Response}
    (hattempt : Attempted link request s (.response response) s₁ s₂)
    (hcancelled : link.cancelled s₂ = true) :
    link.traced.send c r (s, []) =
      (.error .cancelled, s₂, attempted request s (.response response) s₁ s₂) := by
  rw [Link.send, hwire]
  simp only [sendFrom, traced, hattempt.uncancelled, hattempt.slot, hattempt.attempt]
  rw [sendFrom.conclude.eq_def]
  simp [RetryPolicy.decide, hcancelled, attempted]

/-- The actions that begin on a cancelled token. -/
def late (link : Link σ) (trace : List (Action σ)) : List (Action σ) :=
  trace.filter fun a => link.cancelled a.before

theorem Cancellable.cancelled_eq_false (h : Cancellable clock moment link) {s : σ}
    (hnone : moment s = none) : link.cancelled s = false := by
  rw [h.cancelled, hnone]
  rfl

theorem late_attempted_length_le {s s₁ s₂ : σ} {reply : Reply}
    (hattempt : Attempted link request s reply s₁ s₂) :
    (late link (attempted request s reply s₁ s₂)).length ≤ 1 := by
  rw [late, attempted, List.filter_cons_of_neg (by simp [Action.before, hattempt.uncancelled])]
  exact List.length_filter_le _ _

/-- Of the actions of a retry, only the wait can begin on a cancelled token. -/
theorem late_retryable (h : Cancellable clock moment link) {s s₁ s₂ s₃ : σ}
    {answer : Option Http.Response} {jitter : Duration}
    (again : Retryable link policy request s answer jitter s₁ s₂ s₃) (event : RetryEvent)
    (rest : List (Action σ)) :
    late link (attempted request s (.ofAnswer answer) s₁ s₂ ++
      .observe event s₃ (link.observe event s₃) :: rest) = late link rest := by
  obtain ⟨hnone₁, hnone₃⟩ := h.retryable again
  simp [late, attempted, Action.before, again.attempted.uncancelled, h.cancelled_eq_false hnone₁,
    h.cancelled_eq_false hnone₃]

/-- **At most one action begins on a cancelled token.** -/
theorem Sends.late_length_le (h : Cancellable clock moment link) {left retries : Nat} {s s' : σ}
    {trace : List (Action σ)} {result : Except ApiError Http.Response}
    (sends : Sends link policy request left retries s trace result s') :
    (late link trace).length ≤ 1 := by
  induction sends with
  | cancelled _ => exact Nat.zero_le _
  | noSlot uncancelled slot => simp [late, Action.before, uncancelled]
  | noReply attempt => exact late_attempted_length_le attempt
  | tooLate attempt _ => exact late_attempted_length_le attempt
  | final attempt _ _ => exact late_attempted_length_le attempt
  | waitTooLong again _ => exact late_attempted_length_le again.attempted
  | noWait again _ _ wait =>
    rw [late_retryable h again]
    exact List.length_filter_le _ _
  | @retry left retries s s₁ s₂ s₃ s₄ s' answer jitter delay event later result again _ _ wait rest
      ih =>
    rw [List.append_assoc, List.cons_append, late_retryable h again]
    cases hcancelled : link.cancelled (link.observe event s₃) with
    | false => simpa [late, Action.before, hcancelled] using ih
    | true =>
      -- then the call that follows finds the token cancelled
      obtain ⟨hwait, -⟩ := h.waits (h.retryable again).2 wait
      rw [h.cancelled] at hcancelled
      obtain ⟨t, ht⟩ := Option.isSome_iff_exists.1 hcancelled
      have hafter : link.cancelled s₄ = true := by rw [h.cancelled, hwait.kept t ht]; rfl
      obtain ⟨rfl, -⟩ := rest.of_cancelled hafter
      exact List.length_filter_le _ _

/-- **Every slot that is granted is used at once**, in the state in which it was granted, and
    no request is sent without one. -/
theorem Sends.attempts_iff_granted {left retries : Nat} {s s' : σ} {trace : List (Action σ)}
    {result : Except ApiError Http.Response}
    (sends : Sends link policy request left retries s trace result s') (at_ : σ) :
    (∃ reply after, Action.attempt request reply at_ after ∈ trace) ↔
      ∃ before, Action.slot false before at_ ∈ trace := by
  induction sends with
  | cancelled _ => simp
  | noSlot _ _ => simp
  | noReply _ => simp [attempted]
  | tooLate _ _ => simp [attempted]
  | final _ _ _ => simp [attempted]
  | waitTooLong _ _ => simp [attempted]
  | noWait _ _ _ _ => simp [attempted]
  | retry _ _ _ _ _ ih => simp [attempted, exists_or, ih]

theorem finalResult_ne_cancelled (answer : Option Http.Response) :
    finalResult answer ≠ .error .cancelled := by
  intro h
  cases answer with
  | none => cases h
  | some r =>
    simp only [finalResult, checkResponse] at h
    split at h
    · cases h
    · unfold ApiError.ofResponse at h
      split at h
      · cases h
      · split at h
        · cases h
        · split at h
          · cases h
          · cases h
          · split at h <;> cases h

/-- **A call is reported as cancelled if the token is cancelled by its end, and only then.**
    An outcome is final only while nobody has cancelled. -/
theorem Sends.result_eq_cancelled_iff (h : Cancellable clock moment link) {left retries : Nat}
    {s s' : σ} {trace : List (Action σ)} {result : Except ApiError Http.Response}
    (sends : Sends link policy request left retries s trace result s') :
    result = .error .cancelled ↔ link.cancelled s' = true := by
  induction sends with
  | cancelled hcancelled => simp [hcancelled]
  | @noSlot left retries s s₁ _ slot =>
    have hslot := (h.slot s).reported
    rw [slot] at hslot
    simp [h.cancelled, hslot rfl]
  | noReply attempt => simp [h.cancelled, (h.attempted attempt).2.1.reported rfl]
  | tooLate _ hcancelled => simp [hcancelled]
  | @final left retries s s₁ s₂ answer _ uncancelled _ =>
    simp [uncancelled, finalResult_ne_cancelled answer]
  | waitTooLong again _ => simp [h.cancelled_eq_false (h.retryable again).2]
  | noWait again _ _ wait =>
    simp [h.cancelled, (h.waits (h.retryable again).2 wait).1.reported rfl]
  | retry _ _ _ _ _ ih => exact ih

/-- **Cancellation ends a call, but for a request whose slot it comes with.**  Whenever the
    caller cancels, no action breaks what `Action.Respects` says, at most one action begins
    on the cancelled token, none does if it was cancelled before the call, and the call is
    reported as cancelled.  A request is sent on the cancelled token exactly if the rate limit
    granted a slot on it. -/
theorem send_respects_cancellation (h : Cancellable clock moment link) {c : Client}
    {r : ApiRequest} (hwire : r.wire c = .ok request) (s : σ) :
    ∃ trace result s', link.send c r s = (result, s') ∧
      (∀ log, link.traced.send c r (s, log) = (result, s', log ++ trace)) ∧
      (∀ a ∈ trace, a.Respects clock moment) ∧
      (late link trace).length ≤ 1 ∧
      (link.cancelled s = true → trace = [] ∧ result = .error .cancelled) ∧
      (result = .error .cancelled ↔ link.cancelled s' = true) ∧
      ((∃ reply s₁ s₂, Action.attempt request reply s₁ s₂ ∈ trace ∧ link.cancelled s₁ = true) ↔
        ∃ s₀ s₁, Action.slot false s₀ s₁ ∈ trace ∧ link.cancelled s₁ = true) := by
  obtain ⟨trace, result, s', hsends, hcall, hlog⟩ := send_isRun link hwire s
  refine ⟨trace, result, s', hcall, hlog, hsends.respects h, hsends.late_length_le h,
    hsends.of_cancelled, hsends.result_eq_cancelled_iff h, ?_, ?_⟩
  · rintro ⟨reply, s₁, s₂, hattempt, hcancelled⟩
    obtain ⟨s₀, hslot⟩ := (hsends.attempts_iff_granted s₁).1 ⟨reply, s₂, hattempt⟩
    exact ⟨s₀, s₁, hslot, hcancelled⟩
  · rintro ⟨s₀, s₁, hslot, hcancelled⟩
    obtain ⟨reply, s₂, hattempt⟩ := (hsends.attempts_iff_granted s₁).2 ⟨s₀, hslot⟩
    exact ⟨reply, s₁, s₂, hattempt, hcancelled⟩

end Calls
end Link

/-! ## 4. Rehearsed cancellation -/

namespace World

variable {π : Type}

/-- When the caller cancelled, unless that still lies ahead. -/
def moment (w : World π) : Option Nat := w.cancelAt.filter (· ≤ w.now)

theorem moment_eq_some {w : World π} {t : Nat} :
    w.moment = some t ↔ w.cancelAt = some t ∧ t ≤ w.now := by
  simp [moment, Option.filter_eq_some_iff]

theorem moment_eq_none {w : World π} :
    w.moment = none ↔ ∀ t, w.cancelAt = some t → w.now < t := by
  simp [moment, Option.filter_eq_none_iff]

theorem isCancelled_eq (w : World π) : w.isCancelled = w.moment.isSome := by
  cases hcancel : w.cancelAt with
  | none => simp [isCancelled, moment, hcancel]
  | some t => by_cases hpast : t ≤ w.now <;> simp [isCancelled, moment, hcancel, hpast]

/-- What a world has to keep so that it goes on as `Link.Goes` says. -/
theorem goes_of {w w' : World π} (hnow : w.now ≤ w'.now)
    (kept : ∀ t, w.cancelAt = some t → t ≤ w.now → w'.cancelAt = some t)
    (since : ∀ t, w'.cancelAt = some t → w.cancelAt = some t ∨ w.now ≤ t) :
    Link.Goes World.now World.moment w w' where
  forward := hnow
  kept t ht := by
    obtain ⟨hcancel, hpast⟩ := moment_eq_some.1 ht
    exact moment_eq_some.2 ⟨kept t hcancel hpast, Nat.le_trans hpast hnow⟩
  since hnone t ht := by
    rcases since t (moment_eq_some.1 ht).1 with hcancel | hlater
    · exact Nat.le_of_lt (moment_eq_none.1 hnone t hcancel)
    · exact hlater

theorem goes_of_eq {w w' : World π} (hnow : w.now ≤ w'.now) (hcancel : w'.cancelAt = w.cancelAt) :
    Link.Goes World.now World.moment w w' :=
  goes_of hnow (fun _ ht _ => hcancel.trans ht) (fun _ ht => .inl (hcancel.symm.trans ht))

theorem cancelAt_cancelAfter (w : World π) (nanos : Nat) :
    (w.cancelAfter nanos).cancelAt =
      some (min (w.cancelAt.getD (w.now + nanos)) (w.now + nanos)) := rfl

theorem goes_cancelAfter {w w' : World π} (hnow : w'.now = w.now)
    (hcancel : w'.cancelAt = w.cancelAt) (nanos : Nat) :
    Link.Goes World.now World.moment w (w'.cancelAfter nanos) := by
  refine goes_of (Nat.le_of_eq hnow.symm) ?_ ?_
  · intro t ht hpast
    rw [cancelAt_cancelAfter, hcancel, ht, hnow, Option.getD_some, Nat.min_eq_left (by omega)]
  · intro t ht
    rw [cancelAt_cancelAfter, hcancel, hnow, Option.some.injEq] at ht
    cases hold : w.cancelAt with
    | none =>
      rw [hold, Option.getD_none] at ht
      exact .inr (by omega)
    | some t₀ =>
      rw [hold, Option.getD_some] at ht
      rcases Nat.le_total t₀ (w.now + nanos) with hle | hle
      · rw [Nat.min_eq_left hle] at ht
        exact .inl (congrArg some ht)
      · exact .inr (by omega)

theorem awaits_attempt (answer : Peer π) (request : Http.Request) (w : World π) :
    Link.Awaits World.now World.moment ((w.attempt answer true request).1 = .interrupted) w
      (w.attempt answer true request).2 := by
  unfold attempt
  split
  · exact ⟨goes_of_eq (Nat.le_refl _) rfl, fun _ _ => Nat.le_max_left _ _, fun h => nomatch h⟩
  dsimp only
  split
  · exact ⟨goes_of_eq (Nat.le_refl _) rfl, fun _ _ => Nat.le_max_left _ _, fun h => nomatch h⟩
  · exact ⟨goes_of_eq (Nat.le_refl _) rfl, fun _ _ => Nat.le_max_left _ _, fun h => nomatch h⟩
  · exact ⟨goes_of_eq (Nat.le_refl _) rfl, fun _ _ => Nat.le_max_left _ _, fun h => nomatch h⟩
  · -- the caller cancels while the peer is silent
    refine ⟨goes_cancelAfter (by rfl) (by rfl) 0, fun _ _ => Nat.le_max_left _ _, fun _ => ?_⟩
    exact Option.isSome_iff_exists.2
      ⟨_, moment_eq_some.2 ⟨cancelAt_cancelAfter _ 0, Nat.min_le_right _ _⟩⟩

theorem awaits_wait (delay : Duration) (w : World π) :
    Link.Awaits World.now World.moment ((w.wait true delay).1 = true) w (w.wait true delay).2 := by
  cases hcancel : w.cancelAt with
  | none =>
    have hwait : w.wait true delay = (false, { w with now := w.now + delay.nanos }) := by
      simp [wait, hcancel]
    rw [hwait]
    refine ⟨goes_of_eq (Nat.le_add_right _ _) rfl, fun t ht => ?_, fun h => nomatch h⟩
    have hsome := (moment_eq_some.1 ht).1
    simp [hcancel] at hsome
  | some m =>
    by_cases hearly : m ≤ w.now + delay.nanos
    · have hwait : w.wait true delay = (true, { w with now := max w.now m }) := by
        simp [wait, hcancel, hearly]
      rw [hwait]
      refine ⟨goes_of_eq (Nat.le_max_left _ _) rfl, fun t ht => ?_, fun _ => ?_⟩
      · have hsome := (moment_eq_some.1 ht).1
        rw [hcancel, Option.some.injEq] at hsome
        exact Nat.le_of_eq (by rw [hsome])
      · exact Option.isSome_iff_exists.2
          ⟨m, moment_eq_some.2 ⟨hcancel, Nat.le_max_right _ _⟩⟩
    · have hwait : w.wait true delay = (false, { w with now := w.now + delay.nanos }) := by
        simp [wait, hcancel, hearly]
      rw [hwait]
      refine ⟨goes_of_eq (Nat.le_add_right _ _) rfl, fun t ht => ?_, fun h => nomatch h⟩
      obtain ⟨hsome, hpast⟩ := moment_eq_some.1 ht
      rw [hcancel, Option.some.injEq] at hsome
      exact absurd (hsome ▸ hpast) hearly

end World

/-- A rehearsal that the caller can interrupt, and whose observer may cancel. -/
theorem Rehearsal.cancellable {π : Type} (peer : Peer π)
    (observer : Option (RetryEvent → World π → World π))
    (goes : ∀ f ∈ observer, ∀ e w, Link.Goes World.now World.moment w (f e w)) :
    Link.Cancellable World.now World.moment (Rehearsal.link ⟨peer, true, observer⟩) where
  cancelled w := w.isCancelled_eq
  past w t ht := (World.moment_eq_some.1 ht).2
  slot w := ⟨World.goes_of_eq (Nat.le_refl _) rfl, fun t _ => Nat.le_max_left _ _,
    fun h => nomatch h⟩
  attempt request w := World.awaits_attempt peer request w
  jitter window w := ⟨rfl, rfl⟩
  observe event w := by
    cases observer with
    | none => exact World.goes_of_eq (Nat.le_refl _) rfl
    | some f =>
      have hgoes := goes f rfl event (Rehearsal.remember event w)
      exact ⟨hgoes.forward, hgoes.kept, hgoes.since⟩
  wait delay w := World.awaits_wait delay w

/-- A rate limit whose next slot is free some time from now.  It grants the slot when the
    caller cancels at that very moment. -/
def World.slotAfter {π : Type} (gap : Duration) (w : World π) : Bool × World π :=
  let w' := (w.wait true gap).2
  (w'.now < w.now + gap.nanos, w')

theorem World.awaits_slotAfter {π : Type} (gap : Duration) (w : World π) :
    Link.Awaits World.now World.moment ((w.slotAfter gap).1 = true) w (w.slotAfter gap).2 := by
  refine { World.awaits_wait gap w with reported := fun hearly => ?_ }
  refine (World.awaits_wait gap w).reported ?_
  have hbefore : (w.wait true gap).2.now < w.now + gap.nanos := by
    simpa [World.slotAfter] using hearly
  cases hcancel : w.cancelAt with
  | none => simp [World.wait, hcancel] at hbefore
  | some m => by_cases hpast : m ≤ w.now + gap.nanos <;> simp_all [World.wait]

/-- The observer cancels when it is told of the first retry: the wait takes no time, and
    the answer that would have come next is not asked for. -/
theorem Link.send_cancelled_by_observer :
    let url : Url := ⟨"https", some ⟨"", "", .name "tfe.test", none⟩, .segments ["api"], none, none⟩
    let c : Client := ⟨url, url, "", .empty, ⟨true, .ofMillis 100, .ofMillis 400, 5⟩⟩
    let r := (ApiRequest.ofAddress .get url).anonymous
    let link := Rehearsal.link ⟨Peer.scripted, true, some fun _ w => w.cancelAfter 0⟩
    let script : List PeerReply := [.response ⟨429, [], some []⟩, .response ⟨200, [], some []⟩]
    ∃ trace s', link.traced.send c r (World.start script, []) = (.error .cancelled, s', trace) ∧
      (∀ a ∈ trace, a.Respects World.now World.moment) ∧ (late link trace).length ≤ 1 ∧
      s'.now = 0 ∧ s'.peer = [.response ⟨200, [], some []⟩] := by
  intro url c r link script
  obtain ⟨request, hwire, hdeliverable⟩ : ∃ request, r.wire c = .ok request ∧ request.isDeliverable = true :=
    ⟨_, rfl, by decide +kernel⟩
  obtain ⟨trace, result, s', hcall, hlog, hrespects, hlate, -, hresult, -⟩ :=
    Link.send_respects_cancellation
      (Rehearsal.cancellable Peer.scripted (some fun _ w => w.cancelAfter 0)
        (fun f hf e w => by cases hf; exact World.goes_cancelAfter rfl rfl 0))
      hwire (World.start script)
  have hbackoff : RetryPolicy.backoff ⟨true, .ofMillis 100, .ofMillis 400, 5⟩ 1
      (.response 429 []) .zero = some (.ofMillis 100) := by decide +kernel
  have hend : s'.isCancelled = true ∧ s'.now = 0 ∧ s'.peer = [.response ⟨200, [], some []⟩] := by
    rw [show s' = (link.send c r (World.start script)).2 from (congrArg Prod.snd hcall).symm]
    simp [Link.send, hwire, Link.sendFrom, Link.sendFrom.conclude, link, Rehearsal.link,
      World.isCancelled, World.start, World.attempt, hdeliverable, script, Peer.scripted, arrivedResponse,
      isBodiless, RetryPolicy.decide, RetryPolicy.isRetryable, RetryPolicy.tooManyRequests, c,
      hbackoff, World.wait, World.cancelAfter, Rehearsal.remember]
  obtain ⟨hcancelled, hnow, hpeer⟩ := hend
  rw [hresult.2 hcancelled] at hlog
  exact ⟨trace, s', hlog [], hrespects, hlate, hnow, hpeer⟩

/-- The caller cancels at the moment at which the rate limit grants a slot, half a second
    after the call began: the request is sent all the same, and the peer sees it. -/
theorem Link.send_dispatches_on_cancelled :
    let url : Url := ⟨"https", some ⟨"", "", .name "tfe.test", none⟩, .segments ["api"], none, none⟩
    let c : Client := ⟨url, url, "", .empty, RetryPolicy.standard⟩
    let r := (ApiRequest.ofAddress .get url).anonymous
    let link := { Rehearsal.link ⟨Peer.scripted, true, none⟩ with
      slot := World.slotAfter (.ofMillis 500) }
    let w := (World.start [.response ⟨200, [], some []⟩]).cancelAfter 500000000
    link.Cancellable World.now World.moment ∧
    ∃ request trace s', r.wire c = .ok request ∧ link.cancelled w = false ∧
      link.traced.send c r (w, []) = (.error .cancelled, s', trace) ∧
      (∃ reply s₁ s₂, Action.attempt request reply s₁ s₂ ∈ trace ∧ link.cancelled s₁ = true) ∧
      s'.requests.map (·.1) = [500000000] := by
  intro url c r link w
  have hlink : link.Cancellable World.now World.moment :=
    { Rehearsal.cancellable Peer.scripted none (by simp) with
      slot := World.awaits_slotAfter (.ofMillis 500) }
  obtain ⟨request, hwire, hdeliverable⟩ : ∃ request, r.wire c = .ok request ∧ request.isDeliverable = true :=
    ⟨_, rfl, by decide +kernel⟩
  have hearly : link.cancelled w = false := by decide +kernel
  have hgap : (Duration.ofMillis 500).nanos = 500000000 := by decide +kernel
  -- the slot is granted on the cancelled token, and the answer comes on it too
  let granted : World (List PeerReply) := { w with now := 500000000 }
  let answered : World (List PeerReply) :=
    { granted with peer := [], requests := [(500000000, arrivedRequest request)] }
  have hslot : link.slot w = (false, granted) := by
    simp [link, w, granted, World.slotAfter, World.wait, World.cancelAfter, World.start, hgap]
  have hattempt : link.attempt request granted =
      (.response (arrivedResponse ⟨200, [], some []⟩), answered) := by
    simp [link, Rehearsal.link, World.attempt, hdeliverable, answered, granted, w, World.start,
      World.cancelAfter, Peer.scripted]
  have hgranted : link.cancelled granted = true := by
    simp [link, Rehearsal.link, granted, w, World.isCancelled, World.cancelAfter, World.start]
  have hanswered : link.cancelled answered = true := hgranted
  have hcall : link.traced.send c r (w, []) = (.error .cancelled, answered,
      [.slot false w granted,
        .attempt request (.response (arrivedResponse ⟨200, [], some []⟩)) granted answered]) :=
    traced_send_of_tooLate hwire ⟨hearly, hslot, hattempt⟩ hanswered
  exact ⟨hlink, request, _, answered, hwire, hearly, hcall,
    ⟨_, granted, answered, List.mem_cons_of_mem _ (List.mem_singleton.2 rfl), hgranted⟩, rfl⟩

end TerraformCloud
