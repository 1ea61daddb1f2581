/-
  TerraformCloud/Proofs/Log/Pacing.lean
  =====================================
  **When a reader of a log asks, and how long it waits.**

  All that goes on between a reader and its source is a list of events: polls, questions to
  the owner of the log, and waits.  It consists of turns (`next_observed`).  A turn is a poll,
  and behind an empty one a question, and behind the answer that more may come a wait.

  A reader carries the length of its next wait from call to call.  The record says the same:
  a wait is twice as long as the last one, from half a second on and up to three seconds, and
  a piece that arrives starts this over (`Steady.turns`).  Failures leave it as it is.
-/
import Mathlib.Data.List.Chain
import TerraformCloud.Proofs.Log.Reading

namespace TerraformCloud.LogReader

variable {σ : Type}

/-! ## 1. Events -/

inductive Event where
  | polled (answer : Except ApiError Bytes)
  | asked (answer : Except ApiError Bool)
  | waited (delay : Duration) (interrupted : Bool)

namespace Event

/-- A poll that brought something. -/
def isPiece : Event → Bool
  | polled (.ok (_ :: _)) => true
  | _ => false

def isEmptyPoll : Event → Bool
  | polled (.ok []) => true
  | _ => false

def isQuestion : Event → Bool
  | asked _ => true
  | _ => false

/-- A question that was answered: more may come. -/
def isNotYet : Event → Bool
  | asked (.ok false) => true
  | _ => false

def isWait : Event → Bool
  | waited _ _ => true
  | _ => false

/-- The owner is asked right behind an empty poll and never else, and a wait comes right
    behind the answer that more may come and never else. -/
def Leads (e e' : Event) : Prop := e'.isQuestion = e.isEmptyPoll ∧ e'.isWait = e.isNotYet

end Event

/-- The same source, with a record of all that goes on. -/
def Source.observed (source : Source σ) : Source (σ × List Event) where
  poll offset s :=
    let (answer, t) := source.poll offset s.1
    (answer, (t, s.2 ++ [.polled answer]))
  done s :=
    let (answer, t) := source.done s.1
    (answer, (t, s.2 ++ [.asked answer]))
  wait delay s :=
    let (interrupted, t) := source.wait delay s.1
    (interrupted, (t, s.2 ++ [.waited delay interrupted]))

theorem projects_observed (source : Source σ) : Projects Prod.fst source.observed source where
  poll _ _ := rfl
  done _ := rfl
  wait _ _ := rfl

/-! ## 2. Turns -/

/-- The events of one turn, and the reader behind it. -/
inductive Turn (r : LogReader) : List Event → LogReader → Prop where
  | failed (e : ApiError) : Turn r [.polled (.error e)] r
  | piece (b : UInt8) (raw : Bytes) : Turn r [.polled (.ok (b :: raw))] (r.absorb (b :: raw)).2
  | unanswered (e : ApiError) : Turn r [.polled (.ok []), .asked (.error e)] r
  | complete : Turn r [.polled (.ok []), .asked (.ok true)] r.finish.2
  | waited (interrupted : Bool) :
      Turn r [.polled (.ok []), .asked (.ok false), .waited r.idle.1 interrupted] r.idle.2

/-- Any number of turns, with all their events. -/
inductive Turns : LogReader → List Event → LogReader → Prop where
  | nil (r : LogReader) : Turns r [] r
  | cons {r r₁ r' : LogReader} {events later : List Event} (first : Turn r events r₁)
      (rest : Turns r₁ later r') : Turns r (events ++ later) r'

theorem Turn.turns {r r' : LogReader} {events : List Event} (h : Turn r events r') :
    Turns r events r' := by
  have hone := Turns.cons h (.nil r')
  rwa [List.append_nil] at hone

theorem Turns.append {r r₁ r' : LogReader} {earlier later : List Event}
    (h : Turns r earlier r₁) (h' : Turns r₁ later r') : Turns r (earlier ++ later) r' := by
  induction h with
  | nil => exact h'
  | cons first _ ih =>
    rw [List.append_assoc]
    exact .cons first (ih h')

section Observed

variable {source : Source σ} {r r' : LogReader} {t t' : σ × List Event}

theorem observed_poll {offset : Nat} {answer : Except ApiError Bytes}
    (h : source.observed.poll offset t = (answer, t')) : t'.2 = t.2 ++ [.polled answer] := by
  cases h
  rfl

theorem observed_done {answer : Except ApiError Bool} (h : source.observed.done t = (answer, t')) :
    t'.2 = t.2 ++ [.asked answer] := by
  cases h
  rfl

theorem observed_wait {delay : Duration} {interrupted : Bool}
    (h : source.observed.wait delay t = (interrupted, t')) :
    t'.2 = t.2 ++ [.waited delay interrupted] := by
  cases h
  rfl

/-- **A call takes turns**, wherever it breaks off. -/
theorem next_observed {fuel : Nat} {out : Option (Except ApiError (Option String))}
    (h : next source.observed fuel r t = (out, r', t')) :
    ∃ events, t'.2 = t.2 ++ events ∧ Turns r events r' := by
  induction fuel generalizing r t with
  | zero =>
    cases h
    exact ⟨[], by simp, .nil _⟩
  | succ fuel ih =>
    rw [next] at h
    split at h
    · cases h
      exact ⟨[], by simp, .nil _⟩
    · split at h
      · next poll =>
        cases h
        exact ⟨_, observed_poll poll, (Turn.failed _).turns⟩
      · next poll =>
        split at h
        · next e _ done =>
          cases h
          refine ⟨_, ?_, (Turn.unanswered e).turns⟩
          simp [observed_done done, observed_poll poll]
        · next done =>
          cases h
          refine ⟨_, ?_, Turn.complete.turns⟩
          simp [observed_done done, observed_poll poll]
        · next done =>
          dsimp only at h
          split at h
          · next wait =>
            cases h
            refine ⟨_, ?_, (Turn.waited true).turns⟩
            simp [observed_wait wait, observed_done done, observed_poll poll]
          · next wait =>
            obtain ⟨events, hlog, hturns⟩ := ih h
            refine ⟨_, ?_, .cons (.waited false) hturns⟩
            simp [hlog, observed_wait wait, observed_done done, observed_poll poll]
      · next poll =>
        dsimp only at h
        split at h
        · cases h
          exact ⟨_, observed_poll poll, (Turn.piece _ _).turns⟩
        · obtain ⟨events, hlog, hturns⟩ := ih h
          refine ⟨_, ?_, .cons (.piece _ _) hturns⟩
          simp [hlog, observed_poll poll]

theorem calling_observed {calls : List Nat} {outs : List (Option (Except ApiError (Option String)))}
    (h : calling source.observed calls r t = (outs, r', t')) :
    ∃ events, t'.2 = t.2 ++ events ∧ Turns r events r' := by
  induction calls generalizing r t outs with
  | nil =>
    cases h
    exact ⟨[], by simp, .nil _⟩
  | cons fuel calls ih =>
    rcases hfirst : next source.observed fuel r t with ⟨out, r₁, t₁⟩
    rcases hrest : calling source.observed calls r₁ t₁ with ⟨outs, r₂, t₂⟩
    simp only [calling, hfirst, hrest] at h
    cases h
    obtain ⟨earlier, hearlier, first⟩ := next_observed hfirst
    obtain ⟨later, hlater, rest⟩ := ih hrest
    exact ⟨earlier ++ later, by simp [hlater, hearlier], first.append rest⟩

end Observed

/-! ## 3. The order of events -/

/-- Each question and each wait stands in its place, and none is missing. -/
structure Ordered (log : List Event) : Prop where
  begins : ∀ e ∈ log.head?, e.isQuestion = false ∧ e.isWait = false
  follows : log.IsChain Event.Leads
  ends : ∀ e ∈ log.getLast?, e.isEmptyPoll = false ∧ e.isNotYet = false

theorem Ordered.append {earlier later : List Event} (h : Ordered earlier) (h' : Ordered later) :
    Ordered (earlier ++ later) := by
  constructor
  · intro e he
    rw [List.head?_append, Option.mem_def, Option.or_eq_some_iff] at he
    rcases he with hfirst | ⟨-, hsecond⟩
    · exact h.begins e hfirst
    · exact h'.begins e hsecond
  · apply h.follows.append h'.follows
    intro e he e' he'
    obtain ⟨hquestion, hwait⟩ := h'.begins e' he'
    obtain ⟨hempty, hnotYet⟩ := h.ends e he
    exact ⟨hquestion.trans hempty.symm, hwait.trans hnotYet.symm⟩
  · intro e he
    rw [List.getLast?_append, Option.mem_def, Option.or_eq_some_iff] at he
    rcases he with hsecond | ⟨-, hfirst⟩
    · exact h'.ends e hsecond
    · exact h.ends e hfirst

theorem Turn.ordered {r r' : LogReader} {events : List Event} (h : Turn r events r') :
    Ordered events := by
  cases h <;> constructor <;>
    simp [Event.Leads, Event.isQuestion, Event.isWait, Event.isEmptyPoll, Event.isNotYet]

theorem Turns.ordered {r r' : LogReader} {events : List Event} (h : Turns r events r') :
    Ordered events := by
  induction h with
  | nil => constructor <;> simp
  | cons first _ ih => exact first.ordered.append ih

/-! ## 4. The length of a wait -/

/-- The wait behind so many others: twice as long each time, up to three seconds. -/
def pause (k : Nat) : Duration := .ofMillis (min (500 * Nat.pow 2 k) 3000)

/-- Up to twice the longest wait, no duration is cut short. -/
theorem nanos_ofMillis {ms : Nat} (h : ms ≤ 6000) :
    (Duration.ofMillis ms).nanos = ms * nanosPerMilli := by
  have hlong : 6000 * nanosPerMilli ≤ longestNanos := Nat.le_of_ble_eq_true rfl
  exact Nat.min_eq_left (Nat.le_trans (Nat.mul_le_mul_right _ h) hlong)

theorem min_ofMillis {a b : Nat} (ha : a ≤ 6000) (hb : b ≤ 6000) :
    Duration.min (.ofMillis a) (.ofMillis b) = .ofMillis (min a b) := by
  rw [Duration.min, nanos_ofMillis ha, nanos_ofMillis hb]
  unfold nanosPerMilli
  split
  · next hless => rw [Nat.min_eq_right (by omega)]
  · next hless => rw [Nat.min_eq_left (by omega)]

/-- The wait doubles, as long as it is not too long. -/
theorem pause_succ (k : Nat) : Duration.min ((pause k).scale 2) longestBackoff = pause (k + 1) := by
  have hbound : min (500 * Nat.pow 2 k) 3000 ≤ 3000 := Nat.min_le_right _ _
  have hdoubled : (pause k).scale 2 = .ofMillis (min (500 * Nat.pow 2 k) 3000 * 2) := by
    rw [Duration.scale, pause, nanos_ofMillis (by omega), Nat.mul_right_comm]
    rfl
  have hcapped : min (min (500 * Nat.pow 2 k) 3000 * 2) 3000 =
      min (500 * Nat.pow 2 (k + 1)) 3000 := by
    have htwice : Nat.pow 2 (k + 1) = Nat.pow 2 k * 2 := rfl
    omega
  rw [hdoubled, longestBackoff, min_ofMillis (by omega) (by omega), hcapped, pause]

example : (List.range 5).map pause = [500, 1000, 2000, 3000, 3000].map .ofMillis := by
  decide +kernel

/-- How many times more was still to come since the last piece. -/
def idles (log : List Event) : Nat :=
  (log.reverse.takeWhile fun e => !e.isPiece).countP Event.isNotYet

section Idles

variable {log : List Event} {e : Event}

theorem idles_piece (h : e.isPiece = true) : idles (log ++ [e]) = 0 := by
  simp [idles, h]

theorem idles_notYet (h : e.isPiece = false) (notYet : e.isNotYet = true) :
    idles (log ++ [e]) = idles log + 1 := by
  simp [idles, h, notYet]

theorem idles_other (h : e.isPiece = false) (other : e.isNotYet = false) :
    idles (log ++ [e]) = idles log := by
  simp [idles, h, other]

end Idles

/-- Each wait is as long as the answers since the last piece make it. -/
def Timed (log : List Event) : Prop :=
  ∀ before delay interrupted, before ++ [.waited delay interrupted] <+: log →
    ∃ k, idles before = k + 1 ∧ delay = pause k

theorem Timed.concat {log : List Event} {e : Event} (h : Timed log)
    (last : ∀ delay interrupted, e = .waited delay interrupted →
      ∃ k, idles log = k + 1 ∧ delay = pause k) : Timed (log ++ [e]) := by
  intro before delay interrupted hprefix
  rcases List.prefix_concat_iff.1 hprefix with heq | hearlier
  · obtain ⟨rfl, hwait⟩ := List.append_inj' heq rfl
    exact last _ _ (List.singleton_inj.1 hwait).symm
  · exact h _ _ _ hearlier

theorem Timed.concat_other {log : List Event} {e : Event} (h : Timed log)
    (other : e.isWait = false) : Timed (log ++ [e]) := by
  apply h.concat
  rintro _ _ rfl
  cases other

/-- The next wait of a reader follows from the record. -/
structure Steady (log : List Event) (r : LogReader) : Prop where
  timed : Timed log
  carried : r.backoff = pause (idles log)

/-- An event that brings nothing leaves the next wait as it is. -/
theorem Steady.concat {log : List Event} {e : Event} {r : LogReader} (h : Steady log r)
    (not_piece : e.isPiece = false) (not_notYet : e.isNotYet = false)
    (not_wait : e.isWait = false) : Steady (log ++ [e]) r :=
  ⟨h.timed.concat_other not_wait, by rw [idles_other not_piece not_notYet, h.carried]⟩

theorem Turn.steady {r r' : LogReader} {log events : List Event} (h : Turn r events r')
    (before : Steady log r) : Steady (log ++ events) r' := by
  have hempty : Steady (log ++ [.polled (.ok [])]) r := before.concat rfl rfl rfl
  cases h with
  | failed e => exact before.concat rfl rfl rfl
  | piece b raw =>
    refine ⟨before.timed.concat_other rfl, ?_⟩
    rw [idles_piece rfl, absorb]
    dsimp only
    split <;> rfl
  | unanswered e =>
    rw [List.append_cons]
    exact hempty.concat rfl rfl rfl
  | complete =>
    have hasked : Steady (log ++ [.polled (.ok [])] ++ [.asked (.ok true)]) r :=
      hempty.concat rfl rfl rfl
    rw [List.append_cons]
    exact ⟨hasked.timed, hasked.carried⟩
  | waited interrupted =>
    have hidles : idles (log ++ [.polled (.ok [])] ++ [.asked (.ok false)]) = idles log + 1 := by
      rw [idles_notYet rfl rfl, idles_other rfl rfl]
    rw [List.append_cons, List.append_cons]
    constructor
    · apply (hempty.timed.concat_other rfl).concat
      rintro delay _ ⟨⟩
      exact ⟨idles log, hidles, before.carried⟩
    · rw [idles_other rfl rfl, hidles, ← pause_succ, ← before.carried]
      rfl

theorem Turns.steady {r r' : LogReader} {log events : List Event} (h : Turns r events r')
    (before : Steady log r) : Steady (log ++ events) r' := by
  induction h generalizing log with
  | nil => rwa [List.append_nil]
  | cons first _ ih =>
    rw [← List.append_assoc]
    exact ih (first.steady before)

/-- Nothing has gone on yet. -/
theorem steady_start (offset : Nat) : Steady [] (startingAt offset) := by
  constructor
  · intro before delay interrupted hprefix
    simp at hprefix
  · rfl

/-! ## 5. Any calls -/

/-- **Waits double up to three seconds, and a piece starts this over.**  Whatever calls are
    made of a reader, and whatever its source answers, the owner of the log is asked once
    behind each empty poll, each answer that more may come is followed by one wait, and the
    length of a wait is told by the number of such answers since the last piece.  The record
    changes nothing of the run. -/
theorem waits_double (source : Source σ) (offset : Nat) (calls : List Nat) (s : σ) :
    ∃ outs r s' log, calling source.observed calls (startingAt offset) (s, []) =
        (outs, r, (s', log)) ∧
      calling source calls (startingAt offset) s = (outs, r, s') ∧ Ordered log ∧ Timed log := by
  rcases hrun : calling source.observed calls (startingAt offset) (s, []) with ⟨outs, r, s', log⟩
  have hplain := (projects_observed source).calling_eq calls (startingAt offset) (s, [])
  rw [hrun] at hplain
  obtain ⟨events, hlog, turns⟩ := calling_observed hrun
  have hlog : log = events := hlog
  subst hlog
  exact ⟨outs, r, s', log, rfl, hplain, turns.ordered, (turns.steady (steady_start offset)).timed⟩

end TerraformCloud.LogReader
