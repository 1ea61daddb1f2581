/-
  TerraformCloud/Proofs/Log/Reading.lean
  ======================================
  **What a reader of a log does, without fuel.**

  `LogReader.next` polls until a piece brings text, so it carries a bound on the number
  of polls.  `Reads` says what it does without the bound: one constructor for each way a
  poll can turn out, with the bytes that arrived.  Whatever `Reads` describes, `next`
  computes with enough fuel (`next_of_reads`), and what `next` computes, `Reads` describes
  (`reads_of_next`).  The same holds of reading to the end, in one text or in chunks
  (`ReadsAll.readAll_eq`, `ReadsAll.readSome_eq`).

  A record of what arrives changes nothing of this, as a reader does the same over any
  source that does the same (`Projects.next_eq`); and what no exchange with a source breaks,
  no reading breaks (`Source.Keeps.next`).
-/
import TerraformCloud.LogReader

namespace TerraformCloud.LogReader

variable {σ τ : Type}

/-! ## 1. Counting what arrives -/

/-- The same source, with a record of all bytes that polls have brought. -/
def Source.metered (source : Source σ) : Source (σ × Bytes) :=
  { poll := fun offset s =>
      match source.poll offset s.1 with
      | (.error e, t) => (.error e, (t, s.2))
      | (.ok piece, t) => (.ok piece, (t, s.2 ++ piece))
    done := fun s => ((source.done s.1).1, ((source.done s.1).2, s.2))
    wait := fun d s => ((source.wait d s.1).1, ((source.wait d s.1).2, s.2)) }

/-! ## 2. One chunk -/

/-- What the next chunk of a reader is: the bytes that arrive, the outcome, and where
    reader and source stand afterwards. -/
inductive Reads (source : Source σ) :
    LogReader → σ → Bytes → Except ApiError (Option String) → LogReader → σ → Prop where
  /-- The end was reached before; nothing is polled. -/
  | ended {r : LogReader} {s : σ} (finished : r.finished = true) :
      Reads source r s [] (.ok none) r s
  | pollFails {r : LogReader} {s s₁ : σ} {e : ApiError} (unfinished : r.finished = false)
      (poll : source.poll r.offset s = (.error e, s₁)) : Reads source r s [] (.error e) r s₁
  | ownerFails {r : LogReader} {s s₁ s₂ : σ} {e : ApiError} (unfinished : r.finished = false)
      (poll : source.poll r.offset s = (.ok [], s₁)) (done : source.done s₁ = (.error e, s₂)) :
      Reads source r s [] (.error e) r s₂
  /-- Nothing new, and nothing will be. -/
  | nothingLeft {r : LogReader} {s s₁ s₂ : σ} (unfinished : r.finished = false)
      (poll : source.poll r.offset s = (.ok [], s₁)) (done : source.done s₁ = (.ok true, s₂)) :
      Reads source r s [] (.ok (nonempty r.finish.1)) r.finish.2 s₂
  | interrupted {r : LogReader} {s s₁ s₂ s₃ : σ} (unfinished : r.finished = false)
      (poll : source.poll r.offset s = (.ok [], s₁)) (done : source.done s₁ = (.ok false, s₂))
      (wait : source.wait r.idle.1 s₂ = (true, s₃)) :
      Reads source r s [] (.error .cancelled) r.idle.2 s₃
  /-- Nothing new so far: another poll follows after a wait. -/
  | idle {r r' : LogReader} {s s₁ s₂ s₃ s' : σ} {received : Bytes}
      {out : Except ApiError (Option String)} (unfinished : r.finished = false)
      (poll : source.poll r.offset s = (.ok [], s₁)) (done : source.done s₁ = (.ok false, s₂))
      (wait : source.wait r.idle.1 s₂ = (false, s₃))
      (later : Reads source r.idle.2 s₃ received out r' s') : Reads source r s received out r' s'
  /-- A piece that brings text. -/
  | shown {r : LogReader} {s s₁ : σ} {b : UInt8} {raw : Bytes} {text : String}
      (unfinished : r.finished = false) (poll : source.poll r.offset s = (.ok (b :: raw), s₁))
      (text_eq : nonempty (r.absorb (b :: raw)).1 = some text) :
      Reads source r s (b :: raw) (.ok (some text)) (r.absorb (b :: raw)).2 s₁
  /-- A piece that brings no text, such as the marker alone: another poll follows. -/
  | silent {r r' : LogReader} {s s₁ s' : σ} {b : UInt8} {raw received : Bytes}
      {out : Except ApiError (Option String)} (unfinished : r.finished = false)
      (poll : source.poll r.offset s = (.ok (b :: raw), s₁))
      (no_text : nonempty (r.absorb (b :: raw)).1 = none)
      (later : Reads source (r.absorb (b :: raw)).2 s₁ received out r' s') :
      Reads source r s (b :: raw ++ received) out r' s'

theorem Reads.of_finished {source : Source σ} {r r' : LogReader} {s s' : σ} {received : Bytes}
    {out : Except ApiError (Option String)} (h : Reads source r s received out r' s')
    (finished : r.finished = true) : out = .ok none ∧ r' = r ∧ s' = s := by
  cases h <;> simp_all

/-! ## 3. Enough fuel -/

/-- What holds whatever the fuel, as long as there is some, holds with enough fuel. -/
theorem enough_of_succ {P : Nat → Prop} (h : ∀ fuel, P (fuel + 1)) :
    ∃ least, ∀ fuel, least ≤ fuel → P fuel := by
  refine ⟨1, fun fuel hfuel => ?_⟩
  obtain ⟨fuel, rfl⟩ := Nat.exists_eq_add_of_le' hfuel
  exact h fuel

/-- One more unit of fuel pays for one more poll. -/
theorem enough_of_later {P Q : Nat → Prop} (later : ∃ least, ∀ fuel, least ≤ fuel → P fuel)
    (step : ∀ fuel, P fuel → Q (fuel + 1)) : ∃ least, ∀ fuel, least ≤ fuel → Q fuel := by
  obtain ⟨least, hleast⟩ := later
  refine ⟨least + 1, fun fuel hfuel => ?_⟩
  obtain ⟨fuel, rfl⟩ := Nat.exists_eq_add_of_le' (Nat.le_of_add_left_le hfuel)
  exact step fuel (hleast fuel (Nat.le_of_succ_le_succ hfuel))

variable {source : Source σ} {r r' : LogReader} {s s' : σ} {received : Bytes}

/-- **Enough fuel gives what `Reads` describes.** -/
theorem next_of_reads {out : Except ApiError (Option String)}
    (h : Reads source r s received out r' s') :
    ∃ least, ∀ fuel, least ≤ fuel → ∀ before,
      next source.metered fuel r (s, before) = (some out, r', (s', before ++ received)) := by
  induction h with
  | ended finished => exact enough_of_succ fun fuel before => by simp [next, finished]
  | pollFails unfinished poll =>
    exact enough_of_succ fun fuel before => by simp [next, unfinished, Source.metered, poll]
  | ownerFails unfinished poll done =>
    exact enough_of_succ fun fuel before => by simp [next, unfinished, Source.metered, poll, done]
  | nothingLeft unfinished poll done =>
    exact enough_of_succ fun fuel before => by simp [next, unfinished, Source.metered, poll, done]
  | interrupted unfinished poll done wait =>
    exact enough_of_succ fun fuel before => by
      simp [next, unfinished, Source.metered, poll, done, wait]
  | idle unfinished poll done wait later ih =>
    refine enough_of_later ih fun fuel hrec before => ?_
    simpa [next, unfinished, Source.metered, poll, done, wait] using hrec before
  | shown unfinished poll text_eq =>
    exact enough_of_succ fun fuel before => by
      simp [next, unfinished, Source.metered, poll, text_eq]
  | @silent r r' s s₁ s' b raw received out unfinished poll no_text later ih =>
    refine enough_of_later ih fun fuel hrec before => ?_
    simpa [next, unfinished, Source.metered, poll, no_text] using hrec (before ++ b :: raw)

/-- **Whatever `next` gives, `Reads` describes.** -/
theorem reads_of_next {fuel : Nat} {out : Except ApiError (Option String)}
    (h : next source fuel r s = (some out, r', s')) :
    ∃ received, Reads source r s received out r' s' := by
  induction fuel generalizing r s with
  | zero => cases h
  | succ fuel ih =>
    rw [next] at h
    split at h
    · next finished =>
      cases h
      exact ⟨[], .ended finished⟩
    · next unfinished =>
      rw [Bool.not_eq_true] at unfinished
      split at h
      · next poll =>
        cases h
        exact ⟨[], .pollFails unfinished poll⟩
      · next poll =>
        split at h
        · next done =>
          cases h
          exact ⟨[], .ownerFails unfinished poll done⟩
        · next done =>
          cases h
          exact ⟨[], .nothingLeft unfinished poll done⟩
        · next done =>
          dsimp only at h
          split at h
          · next wait =>
            cases h
            exact ⟨[], .interrupted unfinished poll done wait⟩
          · next wait =>
            obtain ⟨received, later⟩ := ih h
            exact ⟨received, .idle unfinished poll done wait later⟩
      · next poll =>
        dsimp only at h
        split at h
        · next text_eq =>
          cases h
          exact ⟨_, .shown unfinished poll text_eq⟩
        · next no_text =>
          obtain ⟨received, later⟩ := ih h
          exact ⟨_, .silent unfinished poll no_text later⟩

/-! ## 4. All chunks -/

/-- What a reader shows up to the end of the log, chunk by chunk. -/
inductive ReadsAll (source : Source σ) :
    LogReader → σ → Bytes → List String → LogReader → σ → Prop where
  | stop {r r' : LogReader} {s s' : σ} {received : Bytes}
      (last : Reads source r s received (.ok none) r' s') : ReadsAll source r s received [] r' s'
  | chunk {r r₁ r' : LogReader} {s s₁ s' : σ} {received more : Bytes} {text : String}
      {texts : List String} (first : Reads source r s received (.ok (some text)) r₁ s₁)
      (rest : ReadsAll source r₁ s₁ more texts r' s') :
      ReadsAll source r s (received ++ more) (text :: texts) r' s'

namespace ReadsAll

variable {texts : List String} {s₁ s₂ s₃ : σ}

/-- An empty piece in front changes nothing of what is shown, nor does one without text. -/
theorem of_idle (unfinished : r.finished = false) (poll : source.poll r.offset s = (.ok [], s₁))
    (done : source.done s₁ = (.ok false, s₂)) (wait : source.wait r.idle.1 s₂ = (false, s₃))
    (later : ReadsAll source r.idle.2 s₃ received texts r' s') :
    ReadsAll source r s received texts r' s' := by
  cases later with
  | stop last => exact .stop (.idle unfinished poll done wait last)
  | chunk first rest => exact .chunk (.idle unfinished poll done wait first) rest

theorem of_silent {b : UInt8} {raw : Bytes} (unfinished : r.finished = false)
    (poll : source.poll r.offset s = (.ok (b :: raw), s₁))
    (no_text : nonempty (r.absorb (b :: raw)).1 = none)
    (later : ReadsAll source (r.absorb (b :: raw)).2 s₁ received texts r' s') :
    ReadsAll source r s (b :: raw ++ received) texts r' s' := by
  cases later with
  | stop last => exact .stop (.silent unfinished poll no_text last)
  | chunk first rest =>
    rw [← List.append_assoc]
    exact .chunk (.silent unfinished poll no_text first) rest

theorem nonempty_eq_none {t : String} (h : nonempty t = none) : t = "" := by
  unfold nonempty at h
  split at h
  · exact String.isEmpty_iff.1 ‹_›
  · cases h

theorem nonempty_eq_some {t u : String} (h : nonempty t = some u) : u = t := by
  unfold nonempty at h
  split at h
  · cases h
  · exact (Option.some.inj h).symm

theorem getD_nonempty (t : String) : (nonempty t).getD "" = t := by
  cases h : nonempty t with
  | none => exact (nonempty_eq_none h).symm
  | some u => exact nonempty_eq_some h

/-- Whether a piece brings text or not, the chunks together are its text and what comes
    behind. -/
theorem of_piece {b : UInt8} {raw : Bytes} (unfinished : r.finished = false)
    (poll : source.poll r.offset s = (.ok (b :: raw), s₁))
    (later : ReadsAll source (r.absorb (b :: raw)).2 s₁ received texts r' s') :
    ∃ all, ReadsAll source r s (b :: raw ++ received) all r' s' ∧
      String.join all = (r.absorb (b :: raw)).1 ++ String.join texts := by
  cases htext : nonempty (r.absorb (b :: raw)).1 with
  | none =>
    refine ⟨texts, of_silent unfinished poll htext later, ?_⟩
    rw [nonempty_eq_none htext, String.empty_append]
  | some text =>
    refine ⟨text :: texts, .chunk (.shown unfinished poll htext) later, ?_⟩
    rw [String.join_cons, nonempty_eq_some htext]

/-- At the end, what was held back is the last chunk. -/
theorem of_nothingLeft (unfinished : r.finished = false)
    (poll : source.poll r.offset s = (.ok [], s₁)) (done : source.done s₁ = (.ok true, s₂)) :
    ∃ all, ReadsAll source r s [] all r.finish.2 s₂ ∧ String.join all = r.finish.1 := by
  have hreads := Reads.nothingLeft unfinished poll done
  cases htext : nonempty r.finish.1 with
  | none =>
    rw [htext] at hreads
    exact ⟨[], .stop hreads, (nonempty_eq_none htext).symm⟩
  | some text =>
    rw [htext] at hreads
    refine ⟨[text], .chunk hreads (.stop (.ended rfl)), ?_⟩
    rw [String.join_cons, String.join_nil, String.append_empty, nonempty_eq_some htext]

theorem of_ended (unfinished : r.finished = false) (complete : r.pending = [])
    (poll : source.poll r.offset s = (.ok [], s₁)) (done : source.done s₁ = (.ok true, s₂)) :
    ReadsAll source r s [] [] r.finish.2 s₂ := by
  have hreads := Reads.nothingLeft unfinished poll done
  have hnone : nonempty r.finish.1 = none := by
    rw [finish, complete, lossy, Utf8.decodeLossy]
    rfl
  rw [hnone] at hreads
  exact .stop hreads

/-- **With enough fuel, reading to the end gives the chunks as one text.** -/
theorem readAll_eq (h : ReadsAll source r s received texts r' s') :
    ∃ least, ∀ fuel pieces, least ≤ fuel → least ≤ pieces → ∀ before,
      readAll source.metered fuel pieces r (s, before) =
        (some (.ok (String.join texts)), r', (s', before ++ received)) := by
  induction h with
  | stop last =>
    obtain ⟨least, hnext⟩ := next_of_reads last
    refine ⟨least + 1, fun fuel pieces hfuel hpieces before => ?_⟩
    obtain ⟨pieces, rfl⟩ := Nat.exists_eq_add_of_le' (Nat.le_of_add_left_le hpieces)
    rw [readAll, hnext fuel (by omega)]
    rfl
  | chunk first rest ih =>
    obtain ⟨least, hnext⟩ := next_of_reads first
    obtain ⟨later, hrest⟩ := ih
    refine ⟨least + later + 1, fun fuel pieces hfuel hpieces before => ?_⟩
    obtain ⟨pieces, rfl⟩ := Nat.exists_eq_add_of_le' (Nat.le_of_add_left_le hpieces)
    rw [readAll, hnext fuel (by omega)]
    simp only [hrest fuel pieces (by omega) (by omega), List.append_assoc, String.join_cons]

/-- **With enough fuel, reading chunk by chunk gives the chunks.** -/
theorem readSome_eq (h : ReadsAll source r s received texts r' s') :
    ∃ least, ∀ fuel pieces, least ≤ fuel → least ≤ pieces → ∀ before, ∃ shown,
      readSome source.metered fuel pieces r (s, before) =
        (some (.ok shown), r', (s', before ++ received)) ∧ shown.map Prod.fst = texts := by
  induction h with
  | stop last =>
    obtain ⟨least, hnext⟩ := next_of_reads last
    refine ⟨least + 1, fun fuel pieces hfuel hpieces before => ⟨[], ?_, rfl⟩⟩
    obtain ⟨pieces, rfl⟩ := Nat.exists_eq_add_of_le' (Nat.le_of_add_left_le hpieces)
    rw [readSome, hnext fuel (by omega)]
  | @chunk r r₁ r' s s₁ s' received more text texts first rest ih =>
    obtain ⟨least, hnext⟩ := next_of_reads first
    obtain ⟨later, hrest⟩ := ih
    refine ⟨least + later + 1, fun fuel pieces hfuel hpieces before => ?_⟩
    obtain ⟨pieces, rfl⟩ := Nat.exists_eq_add_of_le' (Nat.le_of_add_left_le hpieces)
    obtain ⟨shown, hshown, htexts⟩ := hrest fuel pieces (by omega) (by omega) (before ++ received)
    refine ⟨(text, r₁) :: shown, ?_, by rw [List.map_cons, htexts]⟩
    rw [readSome, hnext fuel (by omega)]
    simp only [hshown, List.append_assoc]

end ReadsAll

/-- A reader that has reached the end leaves every source alone. -/
theorem next_of_finished (other : Source σ) (fuel : Nat) (h : r.finished = true) (t : σ) :
    next other (fuel + 1) r t = (some (.ok none), r, t) := by
  simp [next, h]

/-! ## 5. Sources that do the same -/

/-- A source that does the same as another one, on states that hold more. -/
structure Projects (view : τ → σ) (detailed : Source τ) (source : Source σ) : Prop where
  poll : ∀ offset t, source.poll offset (view t) =
    ((detailed.poll offset t).1, view (detailed.poll offset t).2)
  done : ∀ t, source.done (view t) = ((detailed.done t).1, view (detailed.done t).2)
  wait : ∀ delay t, source.wait delay (view t) =
    ((detailed.wait delay t).1, view (detailed.wait delay t).2)

theorem projects_metered (source : Source σ) : Projects Prod.fst source.metered source where
  poll offset t := by
    rcases hpoll : source.poll offset t.1 with ⟨_ | piece, s⟩ <;> simp [Source.metered, hpoll]
  done _ := rfl
  wait _ _ := rfl

section Projects

variable {view : τ → σ} {detailed : Source τ}

/-- **Then a reader reads the same.** -/
theorem Projects.next_eq (h : Projects view detailed source) (fuel : Nat) (r : LogReader) (t : τ) :
    next source fuel r (view t) =
      ((next detailed fuel r t).1, (next detailed fuel r t).2.1,
        view (next detailed fuel r t).2.2) := by
  induction fuel generalizing r t with
  | zero => rfl
  | succ fuel ih =>
    cases hfinished : r.finished with
    | true => simp [next, hfinished]
    | false =>
      have hpoll := h.poll r.offset t
      rcases hdetailed : detailed.poll r.offset t with ⟨e | _ | ⟨b, raw⟩, t₁⟩
      · rw [hdetailed] at hpoll
        simp [next, hfinished, hpoll, hdetailed]
      · rw [hdetailed] at hpoll
        have hdone := h.done t₁
        rcases hasked : detailed.done t₁ with ⟨e | _ | _, t₂⟩
        · rw [hasked] at hdone
          simp [next, hfinished, hpoll, hdetailed, hdone, hasked]
        · rw [hasked] at hdone
          have hwait := h.wait r.idle.1 t₂
          rcases hwaited : detailed.wait r.idle.1 t₂ with ⟨_ | _, t₃⟩
          · rw [hwaited] at hwait
            simp [next, hfinished, hpoll, hdetailed, hdone, hasked, hwait, hwaited, ih]
          · rw [hwaited] at hwait
            simp [next, hfinished, hpoll, hdetailed, hdone, hasked, hwait, hwaited]
        · rw [hasked] at hdone
          simp [next, hfinished, hpoll, hdetailed, hdone, hasked]
      · rw [hdetailed] at hpoll
        cases htext : nonempty (r.absorb (b :: raw)).1 with
        | some text => simp [next, hfinished, hpoll, hdetailed, htext]
        | none => simp [next, hfinished, hpoll, hdetailed, htext, ih]

theorem Projects.readAll_eq (h : Projects view detailed source) (fuel pieces : Nat) (r : LogReader)
    (t : τ) :
    readAll source fuel pieces r (view t) =
      ((readAll detailed fuel pieces r t).1, (readAll detailed fuel pieces r t).2.1,
        view (readAll detailed fuel pieces r t).2.2) := by
  induction pieces generalizing r t with
  | zero => rfl
  | succ pieces ih =>
    rw [readAll, readAll, h.next_eq]
    rcases next detailed fuel r t with ⟨_ | e | _ | text, r₁, t₁⟩
    · rfl
    · rfl
    · rfl
    · dsimp only
      rw [ih]
      rcases readAll detailed fuel pieces r₁ t₁ with ⟨_ | e | rest, r₂, t₂⟩ <;> rfl

theorem Projects.readSome_eq (h : Projects view detailed source) (fuel pieces : Nat)
    (r : LogReader) (t : τ) :
    readSome source fuel pieces r (view t) =
      ((readSome detailed fuel pieces r t).1, (readSome detailed fuel pieces r t).2.1,
        view (readSome detailed fuel pieces r t).2.2) := by
  induction pieces generalizing r t with
  | zero => rfl
  | succ pieces ih =>
    rw [readSome, readSome, h.next_eq]
    rcases next detailed fuel r t with ⟨_ | e | _ | text, r₁, t₁⟩
    · rfl
    · rfl
    · rfl
    · dsimp only
      rw [ih]
      rcases readSome detailed fuel pieces r₁ t₁ with ⟨_ | e | rest, r₂, t₂⟩ <;> rfl

end Projects

theorem Reads.next_eq {out : Except ApiError (Option String)}
    (h : Reads source r s received out r' s') :
    ∃ least, ∀ fuel, least ≤ fuel → next source fuel r s = (some out, r', s') := by
  obtain ⟨least, hnext⟩ := next_of_reads h
  refine ⟨least, fun fuel hfuel => ?_⟩
  have hprojected := (projects_metered source).next_eq fuel r (s, [])
  rw [hnext fuel hfuel] at hprojected
  exact hprojected

theorem Reads.readSome_one {text : String}
    (h : Reads source r s received (.ok (some text)) r' s') :
    ∃ fuel, readSome source fuel 1 r s = (some (.ok [(text, r')]), r', s') := by
  obtain ⟨least, hnext⟩ := h.next_eq
  refine ⟨least, ?_⟩
  rw [readSome, hnext least (Nat.le_refl _)]
  rfl

/-- With enough fuel, reading to the end gives a text, as one or in chunks. -/
def ShowsAll (source : Source σ) (r : LogReader) (s : σ) (text : String) : Prop :=
  ∃ chunks r' s' least, String.join chunks = text ∧
    ∀ fuel pieces, least ≤ fuel → least ≤ pieces →
      readAll source fuel pieces r s = (some (.ok text), r', s') ∧
      ∃ shown, readSome source fuel pieces r s = (some (.ok shown), r', s') ∧
        shown.map Prod.fst = chunks

theorem ReadsAll.showsAll {texts : List String} (h : ReadsAll source r s received texts r' s') :
    ShowsAll source r s (String.join texts) := by
  obtain ⟨least, hall⟩ := h.readAll_eq
  obtain ⟨least', hsome⟩ := h.readSome_eq
  refine ⟨texts, r', s', least + least', rfl, fun fuel pieces hfuel hpieces => ⟨?_, ?_⟩⟩
  · have hprojected := (projects_metered source).readAll_eq fuel pieces r (s, [])
    rw [hall fuel pieces (by omega) (by omega)] at hprojected
    exact hprojected
  · obtain ⟨shown, hshown, htexts⟩ := hsome fuel pieces (by omega) (by omega) []
    have hprojected := (projects_metered source).readSome_eq fuel pieces r (s, [])
    rw [hshown] at hprojected
    exact ⟨shown, hprojected, htexts⟩

/-! ## 6. Sources that keep a property -/

theorem absorb_offset (r : LogReader) (piece : Bytes) :
    (r.absorb piece).2.offset = r.offset + piece.length := by
  unfold LogReader.absorb
  dsimp only
  split <;> rfl

@[simp] theorem idle_offset (r : LogReader) : r.idle.2.offset = r.offset := rfl

@[simp] theorem finish_offset (r : LogReader) : r.finish.2.offset = r.offset := rfl

/-- How many bytes a poll has brought. -/
def arrived : Except ApiError Bytes → Nat
  | .error _ => 0
  | .ok piece => piece.length

@[simp] theorem arrived_error (e : ApiError) : arrived (.error e) = 0 := rfl

/-- No exchange with a source breaks a property of its state and of the bytes that have
    arrived so far. -/
structure Source.Keeps (source : Source σ) (P : Nat → σ → Prop) : Prop where
  poll : ∀ offset s, P offset s → P (offset + arrived (source.poll offset s).1) (source.poll offset s).2
  done : ∀ offset s, P offset s → P offset (source.done s).2
  wait : ∀ offset delay s, P offset s → P offset (source.wait delay s).2

theorem Source.Keeps.next {P : Nat → σ → Prop} (keeps : source.Keeps P) (fuel : Nat) (r : LogReader)
    (h : P r.offset s) : P (next source fuel r s).2.1.offset (next source fuel r s).2.2 := by
  induction fuel generalizing r s with
  | zero => exact h
  | succ fuel ih =>
    cases hfinished : r.finished with
    | true => simpa [LogReader.next, hfinished] using h
    | false =>
      have hpoll := keeps.poll r.offset s h
      rcases hpolled : source.poll r.offset s with ⟨e | _ | ⟨b, raw⟩, s₁⟩
      · rw [hpolled] at hpoll
        simpa [LogReader.next, hfinished, hpolled] using hpoll
      · rw [hpolled] at hpoll
        have hdone := keeps.done r.offset s₁ hpoll
        rcases hasked : source.done s₁ with ⟨e | _ | _, s₂⟩
        · rw [hasked] at hdone
          simpa [LogReader.next, hfinished, hpolled, hasked] using hdone
        · rw [hasked] at hdone
          have hwait := keeps.wait r.offset r.idle.1 s₂ hdone
          rcases hwaited : source.wait r.idle.1 s₂ with ⟨_ | _, s₃⟩
          · rw [hwaited] at hwait
            simpa [LogReader.next, hfinished, hpolled, hasked, hwaited] using ih r.idle.2 hwait
          · rw [hwaited] at hwait
            simpa [LogReader.next, hfinished, hpolled, hasked, hwaited] using hwait
        · rw [hasked] at hdone
          simpa [LogReader.next, hfinished, hpolled, hasked] using hdone
      · rw [hpolled] at hpoll
        have hpiece : P (r.absorb (b :: raw)).2.offset s₁ := by
          rw [absorb_offset]
          exact hpoll
        cases htext : nonempty (r.absorb (b :: raw)).1 with
        | some text => simpa [LogReader.next, hfinished, hpolled, htext] using hpiece
        | none =>
          simpa [LogReader.next, hfinished, hpolled, htext] using ih (r.absorb (b :: raw)).2 hpiece

theorem Source.Keeps.readAll {P : Nat → σ → Prop} (keeps : source.Keeps P) (fuel pieces : Nat) (r : LogReader)
    (h : P r.offset s) :
    P (readAll source fuel pieces r s).2.1.offset (readAll source fuel pieces r s).2.2 := by
  induction pieces generalizing r s with
  | zero => exact h
  | succ pieces ih =>
    have hnext := keeps.next fuel r h
    rw [LogReader.readAll]
    rcases hread : LogReader.next source fuel r s with ⟨_ | e | _ | text, r₁, s₁⟩
    all_goals rw [hread] at hnext
    · exact hnext
    · exact hnext
    · exact hnext
    · have hrest := ih r₁ hnext
      dsimp only
      rcases hall : LogReader.readAll source fuel pieces r₁ s₁ with ⟨_ | e | rest, r₂, s₂⟩
      all_goals
        rw [hall] at hrest
        exact hrest

theorem Source.Keeps.readSome {P : Nat → σ → Prop} (keeps : source.Keeps P) (fuel pieces : Nat) (r : LogReader)
    (h : P r.offset s) :
    P (readSome source fuel pieces r s).2.1.offset (readSome source fuel pieces r s).2.2 := by
  induction pieces generalizing r s with
  | zero => exact h
  | succ pieces ih =>
    have hnext := keeps.next fuel r h
    rw [LogReader.readSome]
    rcases hread : LogReader.next source fuel r s with ⟨_ | e | _ | text, r₁, s₁⟩
    all_goals rw [hread] at hnext
    · exact hnext
    · exact hnext
    · exact hnext
    · have hrest := ih r₁ hnext
      dsimp only
      rcases hall : LogReader.readSome source fuel pieces r₁ s₁ with ⟨_ | e | rest, r₂, s₂⟩
      all_goals
        rw [hall] at hrest
        exact hrest

/-! ## 7. Any calls -/

/-- What any number of calls gives, each with its own fuel and whatever the ones before gave.
    A call that runs out of fuel breaks off between two polls, and the next one goes on
    there, so what holds after any calls holds after any poll. -/
def calling (source : Source σ) : List Nat → LogReader → σ →
    List (Option (Except ApiError (Option String))) × LogReader × σ
  | [], r, s => ([], r, s)
  | fuel :: calls, r, s =>
    let (out, r, s) := next source fuel r s
    let (outs, r, s) := calling source calls r s
    (out :: outs, r, s)

theorem Projects.calling_eq {view : τ → σ} {detailed : Source τ}
    (h : Projects view detailed source) (calls : List Nat) (r : LogReader) (t : τ) :
    calling source calls r (view t) =
      ((calling detailed calls r t).1, (calling detailed calls r t).2.1,
        view (calling detailed calls r t).2.2) := by
  induction calls generalizing r t with
  | nil => rfl
  | cons fuel calls ih => simp [calling, h.next_eq, ih]

end TerraformCloud.LogReader
