/-
  TerraformCloud/Proofs/Sending/Crashes.lean
  ==========================================
  **What ends a program where it occurs.**

  Two lengths of time can be too long to be counted: a wait before another attempt, and the
  period of a limit that a service announces.  Everything else that goes wrong is an error
  that is handed on (`CrashFree`).

  A wait is never too long where it is not configured to be.  Whatever length of time a
  service asks for as a number of seconds, there is room for the jitter above it
  (`Duration.nanos_le_of_ofSeconds?`), so all waits of the standard policy exist
  (`RetryPolicy.standard_waits`).  That leaves the limit, which only a ping looks at
  (`Link.ping_crashes_iff`).
-/
import TerraformCloud.Proofs.Sending.Backoff
import TerraformCloud.Proofs.Service.Demands
import TerraformCloud.Walk.Listing

namespace TerraformCloud

/-! ## 1. Errors that are handed on -/

section Errors

variable {α β : Type}

/-- Whatever goes wrong is handed on. -/
def CrashFree (result : Except ApiError α) : Prop := ∀ e, result = .error e → e.isCrash = false

namespace CrashFree

theorem ok (a : α) : CrashFree (.ok a) := nofun

theorem error {e : ApiError} (h : e.isCrash = false) : CrashFree (.error e : Except ApiError α) := by
  rintro _ ⟨⟩
  exact h

theorem bind {result : Except ApiError α} {next : α → Except ApiError β} (h : CrashFree result)
    (hnext : ∀ a, CrashFree (next a)) : CrashFree (result.bind next) := by
  cases result with
  | error e => exact .error (h e rfl)
  | ok a => exact hnext a

theorem map {result : Except ApiError α} (f : α → β) (h : CrashFree result) :
    CrashFree (result.map f) := by
  cases result with
  | error e => exact .error (h e rfl)
  | ok a => exact .ok (f a)

end CrashFree

theorem crashFree_ofBytes (read? : Nat → Json.Written → Option β) (bytes : Bytes) :
    CrashFree (ofBytes read? bytes) := by
  unfold ofBytes
  split
  · exact .ok _
  · exact .error rfl

theorem Answer.crashFree_read (answer : Answer) (r : Http.Response) : CrashFree (answer.read r) := by
  have hbody : CrashFree (bodyOf r) := by
    unfold bodyOf
    split
    · exact .ok _
    · exact .error rfl
  cases answer with
  | resource kind => exact hbody.bind fun bytes => (crashFree_ofBytes _ bytes).map _
  | page kind =>
    refine hbody.bind fun bytes => (crashFree_ofBytes _ bytes).bind fun raw => ?_
    split
    · exact .error rfl
    · split
      · exact .error rfl
      · exact .ok _
  | nothing => exact .ok ()
  | versions => exact hbody.bind fun bytes => crashFree_ofBytes _ bytes

theorem ApiError.isCrash_ofResponse (status : Http.Status) (body : Bytes) :
    (ofResponse status body).isCrash = false := by
  unfold ofResponse
  repeat' split
  all_goals rfl

theorem crashFree_finalResult (answer : Option Http.Response) : CrashFree (finalResult answer) := by
  cases answer with
  | none => exact .error rfl
  | some r =>
    rw [finalResult, checkResponse]
    split
    · exact .ok r
    · exact .error (ApiError.isCrash_ofResponse _ _)

theorem Client.crashFree_request (c : Client) (base : Base) (method : Http.Method) (path : String) :
    CrashFree (c.request base method path) := by
  unfold Client.request
  split
  · exact .ok _
  · exact .error rfl

theorem ApiRequest.crashFree_wire (c : Client) (r : ApiRequest) : CrashFree (r.wire c) := by
  refine .map _ ?_
  unfold ApiRequest.headers
  dsimp only
  split
  · exact .error rfl
  · exact .ok _

/-- **An operation without a request is refused with an error.** -/
theorem Operation.crashFree_request (op : Operation) (c : Client) : CrashFree (op.request c) := by
  have hcall : CrashFree op.call := by
    have hheeds := op.heeds
    unfold Heeds at hheeds
    split at hheeds
    · exact hheeds ▸ .error rfl
    · obtain ⟨call, hcall⟩ := hheeds
      exact hcall ▸ .ok call
  refine hcall.bind fun call => ?_
  refine (c.crashFree_request _ _ _).bind fun r => CrashFree.bind ?_ fun r => .ok _
  unfold ApiRequest.withOptions
  split
  · exact .ok _
  · exact .error rfl

end Errors

/-! ## 2. Waits that are not too long -/

theorem roundHalfEven_le (num den : Nat) : roundHalfEven num den ≤ num / den + 1 := by
  unfold roundHalfEven
  dsimp only
  split
  · omega
  · split <;> omega

theorem Binary64.significand_lt (x : Binary64) : x.significand < 2 ^ 53 := by
  have hfraction : x.fraction < 2 ^ 52 := Nat.mod_lt _ (by decide)
  unfold significand
  split
  · omega
  · change x.fraction + 2 ^ 52 < 2 ^ 53
    omega

/-- Large doubles lie far apart, and so does the last one below `2 ^ 64` from this bound. -/
theorem Binary64.num_le_of_lt {x : Binary64} (h : x.num < x.den * 2 ^ 64) :
    x.num ≤ x.den * (2 ^ 64 - 2 ^ 11) := by
  have hsmall := x.significand_lt
  by_cases hscale : 11 ≤ x.scale
  · obtain ⟨k, hk⟩ : ∃ k, x.scale.toNat = 11 + k := ⟨x.scale.toNat - 11, by omega⟩
    have hden : x.den = 1 := by
      rw [den, show (-x.scale).toNat = 0 by omega]
    have hnum : x.num = x.significand * 2 ^ k * 2 ^ 11 := by
      rw [num, hk, Nat.mul_assoc, ← Nat.pow_add, Nat.add_comm]
      rfl
    rw [hden, hnum] at h ⊢
    omega
  · have hpow : 2 ^ x.scale.toNat ≤ 2 ^ 10 := Nat.pow_le_pow_right (by decide) (by omega)
    have hnum : x.num ≤ 2 ^ 53 * 2 ^ 10 := Nat.mul_le_mul (Nat.le_of_lt hsmall) hpow
    have hden : 1 ≤ x.den := Nat.pow_pos (by decide)
    calc x.num ≤ 1 * (2 ^ 64 - 2 ^ 11) := Nat.le_trans hnum (by decide)
      _ ≤ x.den * (2 ^ 64 - 2 ^ 11) := Nat.mul_le_mul_right _ hden

/-- There is room above every length of time that is given as a number of seconds. -/
theorem Duration.nanos_le_of_ofSeconds? {x : Binary64} {d : Duration} (h : ofSeconds? x = some d) :
    d.nanos ≤ (2 ^ 64 - 2 ^ 11) * nanosPerSecond + 1 := by
  unfold ofSeconds? at h
  split at h
  · cases h
  split at h
  · cases h
  · next hbelow =>
    have hrounded : d.nanos = roundHalfEven (x.num * nanosPerSecond) x.den := by
      unfold ofNanos? at h
      split at h <;> cases h
      rfl
    have hnum : x.num ≤ x.den * (2 ^ 64 - 2 ^ 11) := Binary64.num_le_of_lt (Nat.not_le.1 hbelow)
    have hquotient : x.num * nanosPerSecond / x.den ≤ (2 ^ 64 - 2 ^ 11) * nanosPerSecond := by
      refine Nat.div_le_of_le_mul ?_
      rw [← Nat.mul_assoc]
      exact Nat.mul_le_mul_right _ hnum
    rw [hrounded]
    exact Nat.le_trans (roundHalfEven_le _ _) (Nat.succ_le_succ hquotient)

namespace RetryPolicy

/-- For every retry that a policy allows, and every jitter inside the window, there is a wait. -/
def Waits (p : RetryPolicy) : Prop :=
  ∀ attempt ≤ p.maxRetries, ∀ outcome (jitter : Duration), jitter.nanos ≤ p.window.nanos →
    p.backoff attempt outcome jitter ≠ none

theorem nanos_hint_le (fields : Http.Fields) :
    (hint fields).nanos ≤ (2 ^ 64 - 2 ^ 11) * nanosPerSecond + 1 := by
  unfold hint
  cases hreset : (RateLimitInfo.ofFields fields).resetAfter with
  | none => exact Nat.zero_le _
  | some reset =>
    obtain ⟨seconds, -, hseconds⟩ := Option.bind_eq_some_iff.1 hreset
    exact Duration.nanos_le_of_ofSeconds? hseconds

/-- **Where nothing is configured, every retry has a wait**, whatever the service asks for. -/
theorem standard_waits : Waits standard := by
  intro attempt hattempt outcome jitter hinside hnone
  rw [backoff_eq_none_iff] at hnone
  have hmax : max attempt 1 ≤ 30 := Nat.max_le.2 ⟨hattempt, by decide⟩
  have hshare : share attempt outcome ≤ 30 := by
    unfold share
    split
    · exact hmax
    · split
      · decide
      · exact hmax
  have hjitter : jitter.nanos * share attempt outcome ≤ 300000000 * 30 :=
    Nat.mul_le_mul (Nat.le_trans hinside (by decide +kernel)) hshare
  have hgrowing : min (standard.waitMin.nanos * max attempt 1) longestNanos ≤ 100000000 * 30 :=
    Nat.le_trans (Nat.min_le_left _ _) (Nat.mul_le_mul (by decide +kernel) hmax)
  have hleast : standard.leastNanos attempt outcome ≤ (2 ^ 64 - 2 ^ 11) * nanosPerSecond + 1 := by
    unfold leastNanos
    split
    · exact Nat.le_trans hgrowing (by decide)
    · split
      · exact Nat.max_le.2 ⟨by decide +kernel, nanos_hint_le _⟩
      · exact Nat.le_trans hgrowing (by decide)
  have hroom : (2 ^ 64 - 2 ^ 11) * nanosPerSecond + 1 + 300000000 * 30 ≤ longestNanos := by
    decide
  have hextra := Nat.le_trans (Nat.min_le_left (jitter.nanos * share attempt outcome) longestNanos) hjitter
  exact absurd hnone (Nat.not_lt.2 (Nat.le_trans (Nat.add_le_add hleast hextra) hroom))

end RetryPolicy

/-! ## 3. Calls -/

/-- A limit of so few requests that the time between two of them is a duration, but too long
    to be counted. -/
def RateLimit.IsTooSlow (limit : Binary64) : Prop :=
  let doubled := limit.mul (.ofNat 2)
  let rate := doubled.div (.ofNat 3)
  limit.isPositiveFinite = true ∧ doubled.isFinite = true ∧ rate.isZero = false ∧
    ∃ period, Duration.ofSeconds? ((Binary64.ofNat 1).div rate) = some period ∧ longestPeriod < period.nanos

/-- **Only this can be wrong about a limit.** -/
theorem RateLimit.ofAnnounced_eq_error_iff {limit : Binary64} {e : ApiError} :
    ofAnnounced limit = .error e ↔ e = .limitTooSlow ∧ IsTooSlow limit := by
  constructor
  · intro h
    unfold ofAnnounced at h
    dsimp only at h
    repeat' split at h
    all_goals cases h
    next hpositive hfinite hrate _ period hperiod _ hlong =>
      exact ⟨rfl, by simpa using hpositive, by simpa using hfinite, by simpa using hrate, period, hperiod, hlong⟩
  · rintro ⟨rfl, hpositive, hfinite, hrate, period, hperiod, hlong⟩
    simp [ofAnnounced, hpositive, hfinite, hrate, hperiod, hlong, Nat.ne_of_gt (Nat.zero_lt_of_lt hlong)]

namespace Link

variable {σ : Type} {link : Link σ} {policy : RetryPolicy} {request : Http.Request}

/-- A link that keeps to the window when it chooses a jitter. -/
def KeepsWindow (link : Link σ) : Prop := ∀ window s, (link.jitter window s).1.nanos ≤ window.nanos

theorem Sends.crashFree (hwaits : policy.Waits) (hjitter : link.KeepsWindow) {left retries : Nat}
    {s s' : σ} {trace : List (Action σ)} {result : Except ApiError Http.Response}
    (sends : Sends link policy request left retries s trace result s')
    (hretries : retries + left ≤ policy.maxRetries) : CrashFree result := by
  induction sends with
  | cancelled _ => exact .error rfl
  | noSlot _ _ => exact .error rfl
  | noReply _ => exact .error rfl
  | tooLate _ _ => exact .error rfl
  | @final _ _ _ _ _ answer _ _ _ => exact crashFree_finalResult answer
  | @waitTooLong left retries s s₁ s₂ s₃ answer jitter again hbackoff =>
    have hinside := hjitter policy.window s₂
    rw [again.jitter] at hinside
    exact absurd hbackoff (hwaits (retries + 1) (by omega) _ jitter hinside)
  | noWait _ _ _ _ => exact .error rfl
  | retry _ _ _ _ _ ih => exact ih (by omega)

/-- **A call whose waits exist ends with a response or an error.** -/
theorem crashFree_send (hjitter : link.KeepsWindow) {c : Client} (hwaits : c.retry.Waits) (r : ApiRequest)
    (s : σ) : CrashFree (link.send c r s).1 := by
  cases hwire : r.wire c with
  | error e =>
    rw [send, hwire]
    exact .error (ApiRequest.crashFree_wire c r e hwire)
  | ok request =>
    obtain ⟨trace, result, s', hsends, hcall, -⟩ := send_isRun link hwire s
    rw [hcall]
    exact hsends.crashFree hwaits hjitter (by omega)

theorem crashFree_fetch {α : Type} (hjitter : link.KeepsWindow) {c : Client} (hwaits : c.retry.Waits)
    (r : ApiRequest) {read : Http.Response → Except ApiError α} (hread : ∀ response, CrashFree (read response))
    (s : σ) : CrashFree (link.fetch c r read s).1 := by
  have hsend := crashFree_send hjitter hwaits r s
  rw [fetch]
  generalize link.send c r s = result at hsend
  obtain ⟨e | response, s'⟩ := result
  · exact .error (hsend e rfl)
  · exact hread response

/-- A response announces a limit that is too slow. -/
def AnnouncesTooSlow (response : Http.Response) : Prop :=
  ∃ limit, (RateLimitInfo.ofFields response.fields).limit = some limit ∧ RateLimit.IsTooSlow limit

theorem announces_of_error {response : Http.Response} {e : ApiError}
    (h : Metadata.ofResponse response = .error e) : e = .limitTooSlow ∧ AnnouncesTooSlow response := by
  unfold Metadata.ofResponse RateLimit.ofInfo at h
  cases hlimit : (RateLimitInfo.ofFields response.fields).limit with
  | none =>
    rw [hlimit] at h
    cases h
  | some limit =>
    rw [hlimit, Option.elim_some] at h
    cases hannounced : RateLimit.ofAnnounced limit with
    | ok kept =>
      rw [hannounced] at h
      cases h
    | error cause =>
      obtain ⟨rfl, hslow⟩ := RateLimit.ofAnnounced_eq_error_iff.1 hannounced
      rw [hannounced] at h
      cases h
      exact ⟨rfl, limit, hlimit, hslow⟩

/-- **A ping is a crash exactly if its answer announces a limit that is too slow.** -/
theorem ping_crashes_iff (hjitter : link.KeepsWindow) {c : Client} (hwaits : c.retry.Waits) (s : σ) :
    (∃ e s', link.ping c s = (.error e, s') ∧ e.isCrash = true) ↔
      ∃ r response s', c.request .api .get "ping" = .ok r ∧ link.send c r s = (.ok response, s') ∧
        AnnouncesTooSlow response := by
  constructor
  · rintro ⟨e, s', hping, hcrash⟩
    unfold ping at hping
    cases hrequest : c.request .api .get "ping" with
    | error e' =>
      rw [hrequest] at hping
      cases hping
      rw [c.crashFree_request _ _ _ _ hrequest] at hcrash
      cases hcrash
    | ok r =>
      rw [hrequest] at hping
      have hsend := crashFree_send hjitter hwaits r s
      dsimp only at hping
      rw [fetch] at hping
      rcases hresult : link.send c r s with ⟨e' | response, s''⟩
      · rw [hresult] at hping hsend
        cases hping
        rw [hsend _ rfl] at hcrash
        cases hcrash
      · rw [hresult] at hping
        obtain ⟨hmetadata, -⟩ := Prod.mk.inj hping
        exact ⟨r, response, s'', rfl, hresult, (announces_of_error hmetadata).2⟩
  · rintro ⟨r, response, s', hrequest, hsend, limit, hlimit, hslow⟩
    refine ⟨.limitTooSlow, s', ?_, rfl⟩
    rw [ping, hrequest]
    dsimp only
    rw [fetch, hsend]
    dsimp only
    rw [Metadata.ofResponse, RateLimit.ofInfo, hlimit, Option.elim_some,
      RateLimit.ofAnnounced_eq_error_iff.2 ⟨rfl, hslow⟩]
    rfl

end Link

/-! ## 4. Walks -/

theorem Walk.crashFree_collectFrom {σ ο ι π : Type} [Paginated ο] [PageInfo π]
    {fetch : ο → σ → Result σ (Page ι π)} (hfetch : ∀ options s, CrashFree (fetch options s).1)
    (options : ο) (number : Nat) (collected : List ι) (s : σ) :
    CrashFree (collectFrom fetch options number collected s).1 := by
  have hpage := hfetch (at_ options number) s
  rw [collectFrom]
  generalize fetch (at_ options number) s = result at hpage
  obtain ⟨e | page, s'⟩ := result
  · exact .error (hpage e rfl)
  · dsimp only
    split
    · exact .ok _
    · exact crashFree_collectFrom hfetch options _ _ s'
termination_by lastPage - number
decreasing_by omega

namespace Listing

variable {σ : Type} {link : Link σ} {c : Client}

theorem crashFree_fetch (hjitter : link.KeepsWindow) (hwaits : c.retry.Waits) (kind : Kind) (l : Listing)
    (s : σ) : CrashFree (l.fetch link c kind s).1 := by
  unfold fetch
  split
  · next e hrequest => exact .error (l.operation.crashFree_request c e hrequest)
  · exact Link.crashFree_fetch hjitter hwaits _ (Answer.crashFree_read _) s

theorem crashFree_collect (hjitter : link.KeepsWindow) (hwaits : c.retry.Waits) (kind : Kind) (l : Listing)
    (s : σ) : CrashFree (l.collect link c kind s).1 :=
  Walk.crashFree_collectFrom (crashFree_fetch hjitter hwaits kind) l 1 [] s

end Listing
end TerraformCloud
