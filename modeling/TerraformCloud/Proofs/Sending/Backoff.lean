/-
  TerraformCloud/Proofs/Sending/Backoff.lean
  ==========================================
  **How long a wait before a retry can be.**

  A wait is its least length and a share of the jitter on top (`backoff_eq`).  The least
  length and the share stop at the longest duration, but their sum does not: where it is
  longer, there is no wait at all.  So the wait lies between its bounds whenever there is
  one, and there is one for every jitter inside the window exactly if there is one for the
  whole window (`backoff_bounds`).

  The bounds are said in nanoseconds, as plain numbers, because durations cannot say what
  is too long for them.
-/
import TerraformCloud.Proofs.Sending.Retries

namespace TerraformCloud

namespace RetryPolicy

/-! ## 1. Durations as numbers -/

section Durations

variable {a b sum : Duration}

theorem nanos_scale (d : Duration) (n : Nat) : (d.scale n).nanos = min (d.nanos * n) longestNanos :=
  rfl

theorem nanos_max (a b : Duration) : (Duration.max a b).nanos = max a.nanos b.nanos := by
  unfold Duration.max
  split
  · next h => exact (Nat.max_eq_right (Nat.le_of_lt h)).symm
  · next h => exact (Nat.max_eq_left (Nat.not_lt.1 h)).symm

theorem scale_one (d : Duration) : d.scale 1 = d := by
  apply Duration.ext
  rw [nanos_scale, Nat.mul_one, Nat.min_eq_left d.le_longest]

/-- A sum is too long, or it is the sum. -/
theorem add?_eq_none_iff : a.add? b = none ↔ longestNanos < a.nanos + b.nanos := by
  unfold Duration.add? Duration.ofNanos?
  split
  · next h => simp [Nat.not_lt.2 h]
  · next h => simp [Nat.not_le.1 h]

theorem nanos_of_add? (h : a.add? b = some sum) : sum.nanos = a.nanos + b.nanos := by
  unfold Duration.add? Duration.ofNanos? at h
  split at h
  · cases h
    rfl
  · cases h

end Durations

/-! ## 2. The parts of a wait -/

/-- How long the service asks to wait; nothing, where it does not say. -/
def hint (fields : Http.Fields) : Duration := (RateLimitInfo.ofFields fields).resetAfter.getD .zero

/-- The least wait before a retry, in nanoseconds. -/
def leastNanos (p : RetryPolicy) (attempt : Nat) : Outcome → Nat
  | .lost => min (p.waitMin.nanos * max attempt 1) longestNanos
  | .response status fields =>
    if status = tooManyRequests then max p.waitMin.nanos (hint fields).nanos
    else min (p.waitMin.nanos * max attempt 1) longestNanos

/-- How often the jitter counts: once after "too many requests", and otherwise once for
    each retry. -/
def share (attempt : Nat) : Outcome → Nat
  | .lost => max attempt 1
  | .response status _ => if status = tooManyRequests then 1 else max attempt 1

section Wait

variable (p : RetryPolicy) (attempt : Nat) (outcome : Outcome) (jitter : Duration)

theorem nanos_plainDelay :
    (p.plainDelay (max attempt 1) outcome).nanos = p.leastNanos attempt outcome := by
  cases outcome with
  | lost => rfl
  | response status fields =>
    unfold plainDelay leastNanos
    dsimp only
    split
    · exact nanos_max _ _
    · rfl

/-- **A wait is its least length and a share of the jitter.** -/
theorem backoff_eq :
    p.backoff attempt outcome jitter =
      (p.plainDelay (max attempt 1) outcome).add? (jitter.scale (share attempt outcome)) := by
  cases outcome with
  | lost => rfl
  | response status fields =>
    simp only [backoff, plainDelay, share]
    split
    · rw [resetWait_eq, scale_one]
    · rfl

theorem backoff_eq_none_iff :
    p.backoff attempt outcome jitter = none ↔
      longestNanos < p.leastNanos attempt outcome +
        min (jitter.nanos * share attempt outcome) longestNanos := by
  rw [backoff_eq, add?_eq_none_iff, nanos_plainDelay, nanos_scale]

variable {p attempt outcome jitter}

theorem nanos_of_backoff {delay : Duration} (h : p.backoff attempt outcome jitter = some delay) :
    delay.nanos =
      p.leastNanos attempt outcome + min (jitter.nanos * share attempt outcome) longestNanos := by
  rw [backoff_eq] at h
  rw [nanos_of_add? h, nanos_plainDelay, nanos_scale]

/-- More jitter counts for more. -/
theorem share_mono {more : Duration} (h : jitter.nanos ≤ more.nanos) :
    min (jitter.nanos * share attempt outcome) longestNanos ≤
      min (more.nanos * share attempt outcome) longestNanos :=
  min_le_min_right longestNanos (Nat.mul_le_mul_right _ h)

/-! ## 3. Bounds -/

theorem delay_bounds (inside : jitter.nanos ≤ p.window.nanos) {delay : Duration}
    (h : p.backoff attempt outcome jitter = some delay) :
    p.leastNanos attempt outcome ≤ delay.nanos ∧
      delay.nanos ≤
        min longestNanos (p.leastNanos attempt outcome + p.window.nanos * share attempt outcome) := by
  have hnanos := nanos_of_backoff h
  have hshare : jitter.nanos * share attempt outcome ≤ p.window.nanos * share attempt outcome :=
    Nat.mul_le_mul_right _ inside
  refine ⟨hnanos ▸ Nat.le_add_right _ _, Nat.le_min.2 ⟨delay.le_longest, ?_⟩⟩
  rw [hnanos]
  exact Nat.add_le_add_left (Nat.le_trans (Nat.min_le_left _ _) hshare) _

end Wait

/-- **Waits keep between their bounds, as far as there are waits.**  A wait that is longer
    than every duration does not exist.  Every jitter inside the window has a wait exactly
    if the least wait and the whole window together are a duration. -/
theorem backoff_bounds (p : RetryPolicy) (attempt : Nat) (outcome : Outcome) :
    (∀ jitter : Duration, jitter.nanos ≤ p.window.nanos →
      (p.backoff attempt outcome jitter = none ↔
        longestNanos < p.leastNanos attempt outcome +
          min (jitter.nanos * share attempt outcome) longestNanos) ∧
      ∀ delay, p.backoff attempt outcome jitter = some delay →
        p.leastNanos attempt outcome ≤ delay.nanos ∧
        delay.nanos ≤ min longestNanos
          (p.leastNanos attempt outcome + p.window.nanos * share attempt outcome)) ∧
    ((∀ jitter : Duration, jitter.nanos ≤ p.window.nanos →
        ∃ delay, p.backoff attempt outcome jitter = some delay) ↔
      p.leastNanos attempt outcome +
        min (p.window.nanos * share attempt outcome) longestNanos ≤ longestNanos) := by
  refine ⟨fun jitter inside => ⟨backoff_eq_none_iff p attempt outcome jitter, fun delay h =>
    delay_bounds inside h⟩, fun hall => ?_, fun hfits jitter inside => ?_⟩
  · -- the whole window is a jitter too
    obtain ⟨delay, hdelay⟩ := hall p.window (Nat.le_refl _)
    rw [← nanos_of_backoff hdelay]
    exact delay.le_longest
  · rw [← Option.ne_none_iff_exists', Ne, backoff_eq_none_iff, Nat.not_lt]
    exact Nat.le_trans (Nat.add_le_add_left (share_mono inside) _) hfits

/-- Where nothing is configured, the third retry comes after three to twelve tenths of a
    second. -/
theorem standard_third_retry :
    ∃ delay, standard.backoff 3 (.response 503 []) (.ofMillis 200) = some delay ∧
      300000000 ≤ delay.nanos ∧ delay.nanos ≤ 1200000000 := by
  obtain ⟨hbounds, hall⟩ := backoff_bounds standard 3 (.response 503 [])
  have inside : (Duration.ofMillis 200).nanos ≤ standard.window.nanos := by decide +kernel
  obtain ⟨delay, hdelay⟩ := hall.2 (by decide +kernel) (.ofMillis 200) inside
  obtain ⟨hleast, hmost⟩ := (hbounds _ inside).2 delay hdelay
  refine ⟨delay, hdelay, ?_, ?_⟩
  · exact Nat.le_trans (by decide +kernel) hleast
  · exact Nat.le_trans hmost (by decide +kernel)

/-- **A wait can be too long to exist.**  In the first case the least wait has reached the
    longest duration, so that the least jitter goes beyond it.  In the second one the
    service asks for a wait of almost that length, and the jitter is an hour. -/
theorem backoff_beyond_longest :
    (let p : RetryPolicy := ⟨true, .ofNanos (longestNanos / 2), .longest, 30⟩
     let jitter : Duration := .ofNanos 1
     jitter.nanos ≤ p.window.nanos ∧ p.backoff 3 .lost jitter = none) ∧
    (let p : RetryPolicy := ⟨true, .zero, .longest, 30⟩
     let asked : Outcome := .response 429 [("x-ratelimit-reset", "18446744073709549568")]
     let jitter : Duration := .ofMillis 3600000
     jitter.nanos ≤ p.window.nanos ∧ p.backoff 1 asked jitter = none) :=
  ⟨⟨by decide +kernel, by decide +kernel⟩, ⟨by decide +kernel, by decide +kernel⟩⟩

end RetryPolicy
end TerraformCloud
