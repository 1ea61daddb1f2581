/-
  TerraformCloud/Proofs/Log/Persistent.lean
  =========================================
  **Errors cost no text.**

  A caller who asks for the next chunk again after every error sees the same chunks, and
  ends up with the same reader, as if nothing had failed (`errors_cost_no_text`).

  What comes of one poll is a `Round`, and what rounds do to a reader needs neither source
  nor fuel (`replay`).  There, failing rounds change nothing (`replay_succeeding`).  A call
  of `next` goes through some rounds of its source and does to the reader what these do
  (`next_passes`), wherever it breaks off; so does any number of calls (`persist_goes`).
-/
import TerraformCloud.Proofs.Log.Reading

namespace TerraformCloud.LogReader

variable {σ : Type}

/-! ## 1. Rounds -/

/-- What comes of one poll of a log. -/
inductive Round where
  | piece (b : UInt8) (raw : Bytes)
  | failed (e : ApiError)
  /-- Nothing new, and asking the owner of the log fails. -/
  | unanswered (e : ApiError)
  /-- Nothing new, and nothing will be. -/
  | complete
  /-- Nothing new so far, and a wait. -/
  | waited (interrupted : Bool)

namespace Round

def isFailure : Round → Bool
  | failed _ | unanswered _ => true
  | _ => false

/-- The chunk that a round brings, if any, and the reader behind it. -/
def apply (r : LogReader) : Round → List String × LogReader
  | piece b raw => ((nonempty (r.absorb (b :: raw)).1).toList, (r.absorb (b :: raw)).2)
  | failed _ | unanswered _ => ([], r)
  | complete => ((nonempty r.finish.1).toList, r.finish.2)
  | waited _ => ([], r.idle.2)

theorem apply_of_isFailure {round : Round} (h : round.isFailure = true) (r : LogReader) :
    round.apply r = ([], r) := by
  cases round <;> first | rfl | cases h

end Round

/-- The chunks that rounds bring, and the reader behind them.  A reader that has reached
    the end takes no notice of more rounds. -/
def replay (r : LogReader) : List Round → List String × LogReader
  | [] => ([], r)
  | round :: rounds =>
    if r.finished then ([], r)
    else
      let (chunk, r) := round.apply r
      let (chunks, r) := replay r rounds
      (chunk ++ chunks, r)

/-- The rounds without those that fail. -/
def succeeding (rounds : List Round) : List Round := rounds.filter (fun round => !round.isFailure)

section Replay

variable {r : LogReader}

theorem replay_of_finished (h : r.finished = true) (rounds : List Round) :
    replay r rounds = ([], r) := by
  cases rounds with
  | nil => rfl
  | cons => exact if_pos h

theorem replay_cons (h : r.finished = false) (round : Round) (rounds : List Round) :
    replay r (round :: rounds) = ((round.apply r).1 ++ (replay (round.apply r).2 rounds).1,
      (replay (round.apply r).2 rounds).2) := by
  simp [replay, h]

theorem replay_append (r : LogReader) (earlier later : List Round) :
    replay r (earlier ++ later) = ((replay r earlier).1 ++ (replay (replay r earlier).2 later).1,
      (replay (replay r earlier).2 later).2) := by
  induction earlier generalizing r with
  | nil => rfl
  | cons round earlier ih =>
    cases hfinished : r.finished with
    | true => simp [replay_of_finished hfinished]
    | false => simp only [List.cons_append, replay_cons hfinished, ih, List.append_assoc]

/-- **Failing rounds change nothing.** -/
theorem replay_succeeding (r : LogReader) (rounds : List Round) :
    replay r (succeeding rounds) = replay r rounds := by
  induction rounds generalizing r with
  | nil => rfl
  | cons round rounds ih =>
    cases hfinished : r.finished with
    | true => rw [replay_of_finished hfinished, replay_of_finished hfinished]
    | false =>
      rw [replay_cons hfinished]
      cases hfails : round.isFailure with
      | true =>
        rw [Round.apply_of_isFailure hfails, ← ih r, succeeding,
          List.filter_cons_of_neg (by simp [hfails])]
        rfl
      | false =>
        rw [← ih, succeeding, List.filter_cons_of_pos (by simp [hfails]), replay_cons hfinished]
        rfl

end Replay

/-! ## 2. Rounds of a source -/

/-- A round that a source can answer with. -/
inductive Source.Answers (source : Source σ) : σ → Round → σ → Prop where
  | piece {offset : Nat} {b : UInt8} {raw : Bytes} {s s' : σ}
      (poll : source.poll offset s = (.ok (b :: raw), s')) : Answers source s (.piece b raw) s'
  | failed {offset : Nat} {e : ApiError} {s s' : σ}
      (poll : source.poll offset s = (.error e, s')) : Answers source s (.failed e) s'
  | unanswered {offset : Nat} {e : ApiError} {s s₁ s' : σ}
      (poll : source.poll offset s = (.ok [], s₁)) (done : source.done s₁ = (.error e, s')) :
      Answers source s (.unanswered e) s'
  | complete {offset : Nat} {s s₁ s' : σ} (poll : source.poll offset s = (.ok [], s₁))
      (done : source.done s₁ = (.ok true, s')) : Answers source s .complete s'
  | waited {offset : Nat} {delay : Duration} {interrupted : Bool} {s s₁ s₂ s' : σ}
      (poll : source.poll offset s = (.ok [], s₁)) (done : source.done s₁ = (.ok false, s₂))
      (wait : source.wait delay s₂ = (interrupted, s')) : Answers source s (.waited interrupted) s'

/-- Rounds that a source can go through. -/
inductive Source.Goes (source : Source σ) : σ → List Round → σ → Prop where
  | nil (s : σ) : Goes source s [] s
  | cons {s s₁ s' : σ} {round : Round} {rounds : List Round} (first : source.Answers s round s₁)
      (rest : Goes source s₁ rounds s') : Goes source s (round :: rounds) s'

variable {source : Source σ}

theorem Source.Goes.append {s s₁ s' : σ} {earlier later : List Round}
    (h : source.Goes s earlier s₁) (h' : source.Goes s₁ later s') :
    source.Goes s (earlier ++ later) s' := by
  induction h with
  | nil => exact h'
  | cons first _ ih => exact .cons first (ih h')

/-! ## 3. A caller who does not give up -/

/-- The text that a call returns, if it returns one. -/
def returned : Option (Except ApiError (Option String)) → List String
  | some (.ok (some text)) => [text]
  | _ => []

/-- The chunks of at most so many calls, whatever errors come between them. -/
def persist (source : Source σ) (fuel : Nat) : Nat → LogReader → σ → List String × LogReader × σ
  | 0, r, s => ([], r, s)
  | calls + 1, r, s =>
    match next source fuel r s with
    | (some (.ok none), r, s) => ([], r, s)
    | (out, r, s) =>
      let (chunks, r, s) := persist source fuel calls r s
      (returned out ++ chunks, r, s)

theorem returned_ok (text : Option String) : returned (some (.ok text)) = text.toList := by
  cases text <;> rfl

section Calls

variable {r r' : LogReader} {s s' : σ} {fuel calls : Nat}

/-- What a call does to the reader is what some rounds do that the source goes through, and
    where the call says that there is no more text, they have led to the end. -/
structure Passes (source : Source σ) (r : LogReader) (s : σ) (rounds : List Round)
    (out : Option (Except ApiError (Option String))) (r' : LogReader) (s' : σ) : Prop where
  goes : source.Goes s rounds s'
  replays : replay r rounds = (returned out, r')
  ended : out = some (.ok none) → r'.finished = true

namespace Passes

variable {out : Option (Except ApiError (Option String))} {round : Round} {s₁ : σ}

theorem last (unfinished : r.finished = false) (answers : source.Answers s round s')
    (applied : round.apply r = (returned out, r'))
    (ended : out = some (.ok none) → r'.finished = true) : Passes source r s [round] out r' s' :=
  ⟨.cons answers (.nil s'), by rw [replay_cons unfinished, applied, replay, List.append_nil], ended⟩

theorem cons (unfinished : r.finished = false) (answers : source.Answers s round s₁)
    (silent : (round.apply r).1 = []) {rounds : List Round}
    (later : Passes source (round.apply r).2 s₁ rounds out r' s') :
    Passes source r s (round :: rounds) out r' s' :=
  ⟨.cons answers later.goes,
    by rw [replay_cons unfinished, silent, later.replays, List.nil_append], later.ended⟩

end Passes

/-- **A call passes through rounds of its source**, and through one at least unless the end
    was reached before. -/
theorem next_passes {out : Option (Except ApiError (Option String))}
    (h : next source fuel r s = (out, r', s')) :
    ∃ rounds, Passes source r s rounds out r' s' ∧
      (0 < fuel → r.finished = false → rounds ≠ []) := by
  induction fuel generalizing r s with
  | zero =>
    cases h
    exact ⟨[], ⟨.nil _, rfl, by simp⟩, fun polls => absurd polls (Nat.lt_irrefl 0)⟩
  | succ fuel ih =>
    rw [next] at h
    split at h
    · next finished =>
      cases h
      exact ⟨[], ⟨.nil _, rfl, fun _ => finished⟩,
        fun _ unfinished => absurd (unfinished.symm.trans finished) Bool.false_ne_true⟩
    next unfinished =>
    rw [Bool.not_eq_true] at unfinished
    suffices h : ∃ round rounds, Passes source r s (round :: rounds) out r' s' by
      obtain ⟨round, rounds, passes⟩ := h
      exact ⟨round :: rounds, passes, fun _ _ => List.cons_ne_nil _ _⟩
    split at h
    · next poll =>
      cases h
      exact ⟨_, [], .last unfinished (.failed poll) rfl (by simp)⟩
    · next poll =>
      split at h
      · next done =>
        cases h
        exact ⟨_, [], .last unfinished (.unanswered poll done) rfl (by simp)⟩
      · next done =>
        cases h
        refine ⟨_, [], .last unfinished (.complete poll done) ?_ fun _ => rfl⟩
        rw [returned_ok]
        rfl
      · next done =>
        dsimp only at h
        split at h
        · next wait =>
          cases h
          exact ⟨_, [], .last unfinished (.waited poll done wait) rfl (by simp)⟩
        · next wait =>
          obtain ⟨rounds, later, -⟩ := ih h
          exact ⟨_, rounds, .cons unfinished (.waited poll done wait) rfl later⟩
    · next poll =>
      dsimp only at h
      split at h
      · next text_eq =>
        cases h
        exact ⟨_, [], .last unfinished (.piece poll) (by rw [Round.apply, text_eq]; rfl) (by simp)⟩
      · next no_text =>
        obtain ⟨rounds, later, -⟩ := ih h
        exact ⟨_, rounds, .cons unfinished (.piece poll) (by rw [Round.apply, no_text]; rfl) later⟩

theorem persist_goes {chunks : List String}
    (h : persist source fuel calls r s = (chunks, r', s')) :
    ∃ rounds, source.Goes s rounds s' ∧ replay r rounds = (chunks, r') := by
  induction calls generalizing r s chunks with
  | zero =>
    cases h
    exact ⟨[], .nil _, rfl⟩
  | succ calls ih =>
    rw [persist] at h
    rcases hnext : next source fuel r s with ⟨out, r₁, s₁⟩
    obtain ⟨rounds, ⟨goes, replays, -⟩, -⟩ := next_passes hnext
    rw [hnext] at h
    split at h
    · next heq =>
      cases heq
      cases h
      exact ⟨rounds, goes, replays⟩
    · next heq =>
      cases heq
      rcases hrest : persist source fuel calls r₁ s₁ with ⟨chunks, r₂, s₂⟩
      rw [hrest] at h
      cases h
      obtain ⟨later, goes', replays'⟩ := ih hrest
      exact ⟨rounds ++ later, goes.append goes', by rw [replay_append, replays, replays']⟩

end Calls

/-! ## 4. Scripts and records -/

/-- A source that answers with given rounds, and with an error when they are used up. -/
def scripted : Source (List Round) where
  poll _ rounds :=
    match rounds with
    | .piece b raw :: rounds => (.ok (b :: raw), rounds)
    | .failed e :: rounds => (.error e, rounds)
    | [] => (.error .connection, [])
    | rounds => (.ok [], rounds)
  done rounds :=
    match rounds with
    | .unanswered e :: rounds => (.error e, rounds)
    | .complete :: rounds => (.ok true, rounds)
    | rounds => (.ok false, rounds)
  wait _ rounds :=
    match rounds with
    | .waited interrupted :: rounds => (interrupted, rounds)
    | rounds => (false, rounds)

theorem scripted_answers {script script' : List Round} {round : Round}
    (h : scripted.Answers script round script') :
    script = round :: script' ∨ round.isFailure = true ∧ script = [] ∧ script' = [] := by
  cases h with
  | piece poll =>
    rcases script with _ | ⟨⟨⟩, script⟩ <;> cases poll
    exact .inl rfl
  | failed poll =>
    rcases script with _ | ⟨⟨⟩, script⟩ <;> cases poll
    · exact .inr ⟨rfl, rfl, rfl⟩
    · exact .inl rfl
  | unanswered poll done =>
    rcases script with _ | ⟨⟨⟩, script⟩ <;> cases poll <;> cases done
    exact .inl rfl
  | complete poll done =>
    rcases script with _ | ⟨⟨⟩, script⟩ <;> cases poll <;> cases done
    exact .inl rfl
  | waited poll done wait =>
    rcases script with _ | ⟨⟨⟩, script⟩ <;> cases poll <;> cases done
    cases wait
    exact .inl rfl

theorem succeeding_cons_congr {rounds rounds' : List Round} (round : Round)
    (h : succeeding rounds = succeeding rounds') :
    succeeding (round :: rounds) = succeeding (round :: rounds') := by
  simp only [succeeding, List.filter_cons] at h ⊢
  rw [h]

/-- A script is answered in order; once it is used up, only failures follow. -/
theorem scripted_goes {script rounds script' : List Round}
    (h : scripted.Goes script rounds script') :
    succeeding (rounds ++ script') = succeeding script ∧ script'.length ≤ script.length ∧
      (script ≠ [] → rounds ≠ [] → script'.length < script.length) := by
  induction h with
  | nil => exact ⟨rfl, Nat.le_refl _, fun _ h => absurd rfl h⟩
  | @cons script script₁ script' round rounds first rest ih =>
    obtain ⟨hrounds, hlength, -⟩ := ih
    have hcons := succeeding_cons_congr round hrounds
    rcases scripted_answers first with rfl | ⟨hfails, rfl, rfl⟩
    · exact ⟨hcons, Nat.le_succ_of_le hlength, fun _ _ => Nat.lt_succ_of_le hlength⟩
    · refine ⟨?_, hlength, fun h => absurd rfl h⟩
      rw [List.cons_append, hcons]
      exact List.filter_cons_of_neg (by simp [hfails])

/-- With a call for each round, a script is used up, unless the end of the log comes first. -/
theorem persist_used_up {fuel calls : Nat} {r r' : LogReader} {script script' : List Round}
    {chunks : List String} (polls : 0 < fuel) (enough : script.length ≤ calls)
    (h : persist scripted fuel calls r script = (chunks, r', script')) :
    r'.finished = true ∨ script' = [] := by
  induction calls generalizing r script chunks with
  | zero =>
    cases h
    exact .inr (List.length_eq_zero_iff.1 (Nat.le_zero.1 enough))
  | succ calls ih =>
    rw [persist] at h
    rcases hnext : next scripted fuel r script with ⟨out, r₁, script₁⟩
    obtain ⟨rounds, passes, progress⟩ := next_passes hnext
    obtain ⟨-, hshorter, hstrict⟩ := scripted_goes passes.goes
    rw [hnext] at h
    split at h
    · next heq =>
      cases heq
      cases h
      exact .inl (passes.ended rfl)
    · next hout heq =>
      cases heq
      rcases hrest : persist scripted fuel calls r₁ script₁ with ⟨chunks, r₂, script₂⟩
      rw [hrest] at h
      cases h
      refine ih ?_ hrest
      cases hfinished : r.finished with
      | true =>
        -- a reader at its end says so, and is not asked again
        obtain ⟨fuel, rfl⟩ := Nat.exists_eq_add_of_le' polls
        rw [next_of_finished _ _ hfinished] at hnext
        cases hnext
        exact (hout rfl).elim
      | false =>
        by_cases hempty : script = []
        · rw [hempty] at hshorter
          exact Nat.le_trans hshorter (Nat.zero_le _)
        · exact Nat.le_of_lt_succ
            (Nat.lt_of_lt_of_le (hstrict hempty (progress polls hfinished)) enough)

/-- **With a call for each round, a caller sees all that a script holds.** -/
theorem persist_scripted {fuel calls : Nat} {r : LogReader} {script : List Round}
    (polls : 0 < fuel) (enough : script.length ≤ calls) :
    ((persist scripted fuel calls r script).1, (persist scripted fuel calls r script).2.1) =
      replay r script := by
  rcases h : persist scripted fuel calls r script with ⟨chunks, r', script'⟩
  obtain ⟨rounds, goes, replays⟩ := persist_goes h
  obtain ⟨hrounds, -⟩ := scripted_goes goes
  rw [← replay_succeeding r script, ← hrounds, replay_succeeding, replay_append, replays]
  rcases persist_used_up polls enough h with hfinished | rfl
  · rw [replay_of_finished hfinished, List.append_nil]
  · rw [replay, List.append_nil]

/-- What a poll, and what asking the owner of the log, adds to a record.  Nothing is added as
    long as the round goes on. -/
def polled : Except ApiError Bytes → List Round
  | .ok [] => []
  | .ok (b :: raw) => [.piece b raw]
  | .error e => [.failed e]

def answered : Except ApiError Bool → List Round
  | .ok true => [.complete]
  | .ok false => []
  | .error e => [.unanswered e]

/-- The same source, with a record of the rounds that it answers with. -/
def Source.recording (source : Source σ) : Source (σ × List Round) where
  poll offset s :=
    let (out, t) := source.poll offset s.1
    (out, (t, s.2 ++ polled out))
  done s :=
    let (out, t) := source.done s.1
    (out, (t, s.2 ++ answered out))
  wait delay s :=
    let (interrupted, t) := source.wait delay s.1
    (interrupted, (t, s.2 ++ [.waited interrupted]))

theorem projects_recording (source : Source σ) : Projects Prod.fst source.recording source where
  poll _ _ := rfl
  done _ := rfl
  wait _ _ := rfl

section Recording

variable {source : Source σ} {t t' : σ × List Round}

theorem recording_poll {offset : Nat} {out : Except ApiError Bytes}
    (h : source.recording.poll offset t = (out, t')) : t'.2 = t.2 ++ polled out := by
  cases h
  rfl

theorem recording_done {out : Except ApiError Bool} (h : source.recording.done t = (out, t')) :
    t'.2 = t.2 ++ answered out := by
  cases h
  rfl

theorem recording_answers {round : Round} (h : source.recording.Answers t round t') :
    t'.2 = t.2 ++ [round] := by
  cases h with
  | piece poll => exact recording_poll poll
  | failed poll => exact recording_poll poll
  | unanswered poll done =>
    rw [recording_done done, recording_poll poll, polled, List.append_nil]
    rfl
  | complete poll done =>
    rw [recording_done done, recording_poll poll, polled, List.append_nil]
    rfl
  | waited poll done wait =>
    cases wait
    have hasked := recording_done done
    rw [recording_poll poll, polled, answered, List.append_nil, List.append_nil] at hasked
    exact congrArg (· ++ _) hasked

theorem recording_goes {rounds : List Round} (h : source.recording.Goes t rounds t') :
    t'.2 = t.2 ++ rounds := by
  induction h with
  | nil => rw [List.append_nil]
  | cons first _ ih => rw [ih, recording_answers first, List.append_assoc, List.singleton_append]

end Recording

theorem Projects.persist_eq {τ : Type} {view : τ → σ} {detailed : Source τ} {source : Source σ}
    (h : Projects view detailed source) (fuel calls : Nat) (r : LogReader) (t : τ) :
    persist source fuel calls r (view t) =
      ((persist detailed fuel calls r t).1, (persist detailed fuel calls r t).2.1,
        view (persist detailed fuel calls r t).2.2) := by
  induction calls generalizing r t with
  | zero => rfl
  | succ calls ih =>
    rw [persist, persist, h.next_eq]
    rcases next detailed fuel r t with ⟨_ | e | _ | text, r₁, t₁⟩
    · simp [ih]
    · simp [ih]
    · rfl
    · simp [ih]

/-! ## 5. Errors -/

/-- **Errors cost no text.**  Of any rounds, a caller who does not give up sees the same chunks
    as if those that fail were not there, and the reader ends up the same.  What any source
    answers such a caller are rounds of this kind. -/
theorem errors_cost_no_text (r : LogReader) :
    (∀ (script : List Round) (fuel calls fuel' calls' : Nat), 0 < fuel → 0 < fuel' →
      script.length ≤ calls → (succeeding script).length ≤ calls' →
      ∃ chunks after left left', persist scripted fuel calls r script = (chunks, after, left) ∧
        persist scripted fuel' calls' r (succeeding script) = (chunks, after, left')) ∧
    ∀ (σ : Type) (source : Source σ) (s s' : σ) (fuel calls fuel' calls' : Nat) chunks after rounds,
      persist source.recording fuel calls r (s, []) = (chunks, after, (s', rounds)) →
      0 < fuel' → (succeeding rounds).length ≤ calls' →
      persist source fuel calls r s = (chunks, after, s') ∧
        ∃ left, persist scripted fuel' calls' r (succeeding rounds) = (chunks, after, left) := by
  constructor
  · intro script fuel calls fuel' calls' polls polls' enough enough'
    have hall := persist_scripted (r := r) polls enough
    have hwithout := persist_scripted (r := r) polls' enough'
    rw [replay_succeeding, ← hall] at hwithout
    obtain ⟨hchunks, hafter⟩ := Prod.mk.inj hwithout
    exact ⟨_, _, _, _, rfl, by rw [← hchunks, ← hafter]⟩
  · intro σ source s s' fuel calls fuel' calls' chunks after rounds h polls' enough'
    have hplain := (projects_recording source).persist_eq fuel calls r (s, [])
    rw [h] at hplain
    obtain ⟨went, goes, replays⟩ := persist_goes h
    have hwent : rounds = went := recording_goes goes
    have hwithout := persist_scripted (r := r) polls' enough'
    rw [replay_succeeding, hwent, replays] at hwithout
    obtain ⟨hchunks, hafter⟩ := Prod.mk.inj hwithout
    exact ⟨hplain, _, by rw [hwent, ← hchunks, ← hafter]⟩

/-- A log of two pieces, the first of which ends inside a character. -/
def accented : List Round :=
  [.piece startMarker [0x68, 0xC3], .failed .connection, .waited true, .piece 0xA9 [],
    .unanswered .malformed, .complete]

theorem accented_without_errors :
    (persist scripted 1 4 start (succeeding accented)).1 = ["h", "é"] ∧
      (persist scripted 1 4 start
        (succeeding (persist scripted.recording 3 6 start (accented, [])).2.2.2)).1 =
          ["h", "é"] := by
  have hchunks : (persist scripted 3 6 start accented).1 = ["h", "é"] := by decide +kernel
  obtain ⟨hscript, hlive⟩ := errors_cost_no_text start
  constructor
  · obtain ⟨chunks, after, left, left', hall, hwithout⟩ :=
      hscript accented 3 6 1 4 (by decide) (by decide) (by decide) (by decide)
    rw [hall] at hchunks
    rw [hwithout, hchunks]
  · have hlength : (succeeding
        (persist scripted.recording 3 6 start (accented, [])).2.2.2).length ≤ 4 := by decide +kernel
    rcases hrun : persist scripted.recording 3 6 start (accented, []) with
      ⟨chunks, after, rest, rounds⟩
    rw [hrun] at hlength
    obtain ⟨hplain, left, hwithout⟩ :=
      hlive _ scripted accented _ 3 6 1 4 _ _ _ hrun (by decide) hlength
    rw [hplain] at hchunks
    rw [hwithout, hchunks]

end TerraformCloud.LogReader
