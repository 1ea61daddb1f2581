/-
  TerraformCloud/Proofs/Log/Growing.lean
  ======================================
  **A reader beside a writer.**

  The log of a plan or an apply grows while it is read, and only its status says that it
  will not grow any more.  A reader polls the log and, when a poll brings nothing, asks
  for the status: two exchanges, and the writer may act before each of them.

  `Stands` is kept by every exchange (`Reads.outcome`), so at the end a reader has shown
  exactly what had been written at its last poll (`Drains.outcome`).  That is the whole
  log if nothing was written between this poll and the answer about the status.  What was
  written there, and declared complete at once, is lost.
-/
import Mathlib.Data.List.Infix
import Mathlib.Logic.Relation
import TerraformCloud.Proofs.Log.Framed

namespace TerraformCloud

open Utf8 (encodeChars)

/-! ## 1. The writer -/

/-- A log as its writer keeps it. -/
structure Archive where
  bytes : Bytes
  /-- Whether its status is final. -/
  final : Bool
deriving DecidableEq, Repr

namespace Archive

/-- The writer appends until the status is final, and nothing after that. -/
inductive Step : Archive → Archive → Prop where
  | append (bytes more : Bytes) : Step ⟨bytes, false⟩ ⟨bytes ++ more, false⟩
  | close (bytes : Bytes) : Step ⟨bytes, false⟩ ⟨bytes, true⟩

def Becomes (a b : Archive) : Prop := Relation.ReflTransGen Step a b

variable {a b c : Archive}

theorem Becomes.refl : a.Becomes a := Relation.ReflTransGen.refl

theorem Becomes.trans (hab : a.Becomes b) (hbc : b.Becomes c) : a.Becomes c :=
  Relation.ReflTransGen.trans hab hbc

theorem Becomes.mono (h : a.Becomes b) : a.bytes <+: b.bytes := by
  induction h with
  | refl => exact List.prefix_rfl
  | tail _ step ih =>
    cases step with
    | append bytes more => exact ih.trans (List.prefix_append _ _)
    | close bytes => exact ih

theorem Becomes.eq_of_final (h : a.Becomes b) (final : a.final = true) : b = a := by
  induction h with
  | refl => rfl
  | tail _ step ih =>
    subst ih
    cases step <;> cases final

/-! A writer that is told what to do takes such steps, and none behind the end. -/

inductive Deed where
  | append (more : Bytes)
  | close

def after (a : Archive) : Deed → Archive
  | .append more => if a.final then a else { a with bytes := a.bytes ++ more }
  | .close => { a with final := true }

theorem becomes_after (a : Archive) (deed : Deed) : a.Becomes (a.after deed) := by
  obtain ⟨bytes, _ | _⟩ := a
  · cases deed with
    | append more => exact .single (.append bytes more)
    | close => exact .single (.close bytes)
  · cases deed <;> exact .refl

theorem becomes_foldl (deeds : List Deed) (a : Archive) : a.Becomes (deeds.foldl after a) := by
  induction deeds generalizing a with
  | nil => exact .refl
  | cons deed deeds ih => exact (becomes_after a deed).trans (ih _)

end Archive

namespace LogReader

open Archive (Deed)

variable {σ : Type} {source : Source σ} {archive : σ → Archive} {log : FramedLog}

/-! ## 2. What a reader sees of it

An exchange happens at the instant at which it is answered.  What the writer does before
that, or while an earlier answer is still on its way, is what `Becomes` allows between two
exchanges, so every interleaving of writer and reader is one of these. -/

/-- A source that shows an archive.  Its writer may act before every exchange; a poll
    brings a beginning of what then lies behind the offset, nothing only if nothing does,
    and the owner answers with the status. -/
structure Observes (source : Source σ) (archive : σ → Archive) : Prop where
  poll : ∀ {offset s result s₁}, source.poll offset s = (result, s₁) →
    (archive s).Becomes (archive s₁) ∧ ∀ piece, result = .ok piece →
      piece <+: (archive s₁).bytes.drop offset ∧
      (piece = [] → (archive s₁).bytes.length ≤ offset)
  done : ∀ {s answer s₁}, source.done s = (answer, s₁) →
    (archive s).Becomes (archive s₁) ∧ ∀ final, answer = .ok final → final = (archive s₁).final
  wait : ∀ {delay s stopped s₁}, source.wait delay s = (stopped, s₁) →
    (archive s).Becomes (archive s₁)

theorem Reads.becomes (observes : Observes source archive) {r r' : LogReader} {s s' : σ}
    {received : Bytes} {out : Except ApiError (Option String)}
    (h : Reads source r s received out r' s') : (archive s).Becomes (archive s') := by
  induction h with
  | ended _ => exact .refl
  | pollFails _ poll => exact (observes.poll poll).1
  | ownerFails _ poll done => exact (observes.poll poll).1.trans (observes.done done).1
  | nothingLeft _ poll done => exact (observes.poll poll).1.trans (observes.done done).1
  | interrupted _ poll done wait =>
    exact ((observes.poll poll).1.trans (observes.done done).1).trans (observes.wait wait)
  | idle _ poll done wait _ ih =>
    exact (((observes.poll poll).1.trans (observes.done done).1).trans (observes.wait wait)).trans ih
  | shown _ poll _ => exact (observes.poll poll).1
  | silent _ poll _ _ ih => exact (observes.poll poll).1.trans ih

/-- The last exchanges of a reading: a poll brings nothing, and the owner writes no more. -/
structure Last (source : Source σ) (offset : Nat) (s₁ s' : σ) : Prop where
  poll : ∃ s₀, source.poll offset s₀ = (.ok [], s₁)
  done : source.done s₁ = (.ok true, s')

/-! ## 3. One chunk

`Stands` is kept by every exchange, as long as what is written is a beginning of the log;
with it, that every byte the reader counts has been written. -/

/-- What a chunk can turn out as, for a reader that has shown the characters `shown` of a
    log and not yet the characters `rest`. -/
inductive Outcome (source : Source σ) (archive : σ → Archive) (log : FramedLog)
    (shown rest : List Char) (s : σ) : Except ApiError (Option String) → LogReader → σ → Prop where
  | shows {r' : LogReader} {s' : σ} {more rest' : List Char}
      (stands : Stands log r' (shown ++ more) rest')
      (arrived : r'.offset ≤ (archive s').bytes.length) :
      Outcome source archive log shown rest s (.ok (some (String.ofList more))) r' s'
  | fails {r' : LogReader} {s' : σ} {e : ApiError} (stands : Stands log r' shown rest)
      (arrived : r'.offset ≤ (archive s').bytes.length) :
      Outcome source archive log shown rest s (.error e) r' s'
  | ends {r' : LogReader} {s₁ s' : σ} (stands : Stands log r' shown rest)
      (last : Last source r'.offset s₁ s') (since : (archive s).Becomes (archive s₁))
      (all : (archive s₁).bytes.length = r'.offset) :
      Outcome source archive log shown rest s (.ok (nonempty r'.finish.1)) r'.finish.2 s'

section Chunk

variable {r r' : LogReader} {s s₁ s' : σ} {shown rest : List Char} {piece : Bytes}

theorem Outcome.since {out : Except ApiError (Option String)}
    (h : Outcome source archive log shown rest s₁ out r' s')
    (before : (archive s).Becomes (archive s₁)) :
    Outcome source archive log shown rest s out r' s' := by
  cases h with
  | shows stands arrived => exact .shows stands arrived
  | fails stands arrived => exact .fails stands arrived
  | ends stands last since all => exact .ends stands last (before.trans since) all

theorem Stands.absorb_open (h : Stands log r shown rest) (hopen : log.closed = none)
    (nonempty : piece ≠ []) (arrived : piece <+: log.bytes.drop r.offset) :
    ∃ more rest', (r.absorb piece).1 = String.ofList more ∧
      Stands log (r.absorb piece).2 (shown ++ more) rest' := by
  obtain ⟨hbody, -, -⟩ := unframed_spec h.within nonempty arrived
  have hclosing : log.closing = [] := by rw [FramedLog.closing, hopen]
  rw [hclosing, List.append_nil] at hbody
  obtain ⟨more, rest', -, htext, hstands⟩ := h.absorb_within nonempty arrived hbody.length_le
  exact ⟨more, rest', htext, hstands⟩

/-- What a poll brings are bytes of the log, and all of them have been written. -/
theorem Observes.arrived (observes : Observes source archive)
    (poll : source.poll r.offset s = (.ok piece, s₁))
    (offset_le : r.offset ≤ (archive s).bytes.length) (within : (archive s₁).bytes <+: log.bytes) :
    piece <+: log.bytes.drop r.offset ∧ r.offset + piece.length ≤ (archive s₁).bytes.length := by
  obtain ⟨hgrown, hpiece⟩ := observes.poll poll
  obtain ⟨hpiece, -⟩ := hpiece piece rfl
  refine ⟨hpiece.trans (List.IsPrefix.drop within r.offset), ?_⟩
  have hlength := hpiece.length_le
  have hle := hgrown.mono.length_le
  rw [List.length_drop] at hlength
  omega

/-- **A chunk leaves a reader where it stands in the log**, or ends the log. -/
theorem Reads.outcome (observes : Observes source archive) (hopen : log.closed = none)
    {received : Bytes} {out : Except ApiError (Option String)}
    (h : Reads source r s received out r' s') (stands : Stands log r shown rest)
    (arrived : r.offset ≤ (archive s).bytes.length) (within : (archive s').bytes <+: log.bytes) :
    Outcome source archive log shown rest s out r' s' := by
  -- carried along: where the reader stands, and that the bytes it counts are written
  induction h generalizing shown rest with
  | ended finished => exact absurd (stands.unfinished.symm.trans finished) Bool.false_ne_true
  | pollFails _ poll =>
    exact .fails stands (Nat.le_trans arrived (observes.poll poll).1.mono.length_le)
  | ownerFails _ poll done =>
    have hgrown := (observes.poll poll).1.trans (observes.done done).1
    exact .fails stands (Nat.le_trans arrived hgrown.mono.length_le)
  | nothingLeft _ poll done =>
    obtain ⟨hgrown, hpiece⟩ := observes.poll poll
    have hall := (hpiece [] rfl).2 rfl
    exact .ends stands ⟨⟨_, poll⟩, done⟩ hgrown
      (Nat.le_antisymm hall (Nat.le_trans arrived hgrown.mono.length_le))
  | interrupted _ poll done wait =>
    have hgrown := ((observes.poll poll).1.trans (observes.done done).1).trans (observes.wait wait)
    exact .fails stands.idle (Nat.le_trans arrived hgrown.mono.length_le)
  | idle _ poll done wait _ ih =>
    have hgrown := ((observes.poll poll).1.trans (observes.done done).1).trans (observes.wait wait)
    exact (ih stands.idle (Nat.le_trans arrived hgrown.mono.length_le) within).since hgrown
  | @shown r s s₁ b raw text _ poll text_eq =>
    obtain ⟨hpiece, hle⟩ := observes.arrived poll arrived within
    obtain ⟨more, rest', hmore, hstands⟩ := stands.absorb_open hopen (List.cons_ne_nil b raw) hpiece
    have htext : text = String.ofList more := (ReadsAll.nonempty_eq_some text_eq).trans hmore
    rw [htext]
    exact .shows hstands (by rw [absorb_offset]; exact hle)
  | @silent r r' s s₁ s' b raw received out _ poll no_text later ih =>
    have hafter := (later.becomes observes).mono.trans within
    obtain ⟨hpiece, hle⟩ := observes.arrived poll arrived hafter
    obtain ⟨more, rest', hmore, hstands⟩ := stands.absorb_open hopen (List.cons_ne_nil b raw) hpiece
    have hnone : more = [] := by
      rw [ReadsAll.nonempty_eq_none no_text] at hmore
      exact String.ofList_eq_empty_iff.1 hmore.symm
    obtain rfl : rest = rest' := by
      have htext := stands.text.symm.trans hstands.text
      rw [hnone, List.append_nil] at htext
      exact List.append_cancel_left htext
    rw [hnone, List.append_nil] at hstands
    have hlater := ih hstands (by rw [absorb_offset]; exact hle) within
    exact hlater.since (observes.poll poll).1

end Chunk

/-! ## 4. All chunks -/

/-- A reader is asked for chunks until it first gives none, also after errors. -/
inductive Drains (source : Source σ) :
    LogReader → σ → List String → LogReader → σ → Prop where
  | ended {fuel : Nat} {r r' : LogReader} {s s' : σ}
      (last : next source fuel r s = (some (.ok none), r', s')) : Drains source r s [] r' s'
  | chunk {fuel : Nat} {r r₁ r' : LogReader} {s s₁ s' : σ} {text : String} {texts : List String}
      (first : next source fuel r s = (some (.ok (some text)), r₁, s₁))
      (later : Drains source r₁ s₁ texts r' s') : Drains source r s (text :: texts) r' s'
  | failed {fuel : Nat} {r r₁ r' : LogReader} {s s₁ s' : σ} {e : ApiError} {texts : List String}
      (first : next source fuel r s = (some (.error e), r₁, s₁))
      (later : Drains source r₁ s₁ texts r' s') : Drains source r s texts r' s'

section Drains

variable {r r' : LogReader} {s s' : σ} {texts : List String} {shown rest : List Char}

theorem ReadsAll.drains {received : Bytes} (h : ReadsAll source r s received texts r' s') :
    Drains source r s texts r' s' := by
  induction h with
  | stop last =>
    obtain ⟨least, hnext⟩ := last.next_eq
    exact .ended (hnext least (Nat.le_refl _))
  | chunk first _ ih =>
    obtain ⟨least, hnext⟩ := first.next_eq
    exact .chunk (hnext least (Nat.le_refl _)) ih

theorem Drains.becomes (observes : Observes source archive) (h : Drains source r s texts r' s') :
    (archive s).Becomes (archive s') := by
  induction h with
  | ended last =>
    obtain ⟨_, hreads⟩ := reads_of_next last
    exact hreads.becomes observes
  | chunk first _ ih =>
    obtain ⟨_, hreads⟩ := reads_of_next first
    exact (hreads.becomes observes).trans ih
  | failed first _ ih =>
    obtain ⟨_, hreads⟩ := reads_of_next first
    exact (hreads.becomes observes).trans ih

/-- Behind the end nothing is shown, and nobody is asked. -/
theorem Drains.of_finished (h : Drains source r s texts r' s') (finished : r.finished = true) :
    texts = [] ∧ r' = r ∧ s' = s := by
  cases h with
  | ended last =>
    obtain ⟨_, hreads⟩ := reads_of_next last
    obtain ⟨-, rfl, rfl⟩ := hreads.of_finished finished
    exact ⟨rfl, rfl, rfl⟩
  | chunk first _ =>
    obtain ⟨_, hreads⟩ := reads_of_next first
    cases (hreads.of_finished finished).1
  | failed first _ =>
    obtain ⟨_, hreads⟩ := reads_of_next first
    cases (hreads.of_finished finished).1

/-- **What a reading has shown when it is over** are the characters in front of where it
    then stood, and what it had held back there. -/
theorem Drains.outcome (observes : Observes source archive) (hopen : log.closed = none)
    (h : Drains source r s texts r' s') (stands : Stands log r shown rest)
    (arrived : r.offset ≤ (archive s).bytes.length) (within : (archive s').bytes <+: log.bytes) :
    ∃ r₀ s₁ more rest', Stands log r₀ (shown ++ more) rest' ∧ Last source r₀.offset s₁ s' ∧
      (archive s).Becomes (archive s₁) ∧ (archive s₁).bytes.length = r₀.offset ∧
      String.join texts = String.ofList more ++ r₀.finish.1 ∧ r' = r₀.finish.2 := by
  -- a chunk decides its own outcome, so two of the three are excluded in every case
  induction h generalizing shown rest with
  | ended last =>
    obtain ⟨_, hreads⟩ := reads_of_next last
    have houtcome := hreads.outcome observes hopen stands arrived within
    generalize hout : Except.ok none = out at houtcome
    cases houtcome with
    | shows => cases hout
    | fails => cases hout
    | @ends r' s₁ _ stands last since all =>
      have hnone := ReadsAll.nonempty_eq_none (Except.ok.inj hout).symm
      refine ⟨r', s₁, [], rest, ?_, last, since, all, ?_, rfl⟩
      · rw [List.append_nil]
        exact stands
      · rw [hnone]
        rfl
  | chunk first later ih =>
    obtain ⟨_, hreads⟩ := reads_of_next first
    have hafter := (later.becomes observes).mono.trans within
    have hgrown := hreads.becomes observes
    have houtcome := hreads.outcome observes hopen stands arrived hafter
    generalize hout : Except.ok (some _) = out at houtcome
    cases houtcome with
    | @shows _ _ more rest' stands arrived =>
      obtain ⟨r₀, s₁, more', rest₀, hstands, hlast, hsince, hall, htexts, hr⟩ :=
        ih stands arrived within
      cases hout
      refine ⟨r₀, s₁, more ++ more', rest₀, ?_, hlast, hgrown.trans hsince, hall, ?_, hr⟩
      · rw [← List.append_assoc]
        exact hstands
      · rw [String.join_cons, htexts, String.ofList_append, String.append_assoc]
    | fails => cases hout
    | @ends r₀ s₁ _ stands last since all =>
      -- what was held back is the last chunk
      obtain ⟨rfl, rfl, rfl⟩ := later.of_finished rfl
      have htext := ReadsAll.nonempty_eq_some (Except.ok.inj hout).symm
      refine ⟨r₀, s₁, [], rest, ?_, last, since, all, ?_, rfl⟩
      · rw [List.append_nil]
        exact stands
      · rw [htext, String.join_cons, String.join_nil, String.append_empty]
        rfl
  | failed first later ih =>
    obtain ⟨_, hreads⟩ := reads_of_next first
    have hafter := (later.becomes observes).mono.trans within
    have hgrown := hreads.becomes observes
    have houtcome := hreads.outcome observes hopen stands arrived hafter
    generalize hout : Except.error _ = out at houtcome
    cases houtcome with
    | shows => cases hout
    | fails stands arrived =>
      obtain ⟨r₀, s₁, more, rest₀, hstands, hlast, hsince, htexts⟩ := ih stands arrived within
      exact ⟨r₀, s₁, more, rest₀, hstands, hlast, hgrown.trans hsince, htexts⟩
    | ends => cases hout

/-- **A reading shows what was written at its last poll.**  That is the complete log if
    nothing was written after this poll, and only then, if the text of the log has no
    replacements of its own. -/
theorem text_at_last_poll (observes : Observes source archive) (hopen : log.closed = none)
    (h : Drains source start s texts r s') (complete : (archive s').Becomes ⟨log.bytes, true⟩) :
    ∃ s₁, Last source r.offset s₁ s' ∧
      (archive s).Becomes (archive s₁) ∧ (archive s₁).Becomes (archive s') ∧
      archive s' = ⟨log.bytes, true⟩ ∧ (archive s₁).bytes = log.bytes.take r.offset ∧
      String.join texts = lossy ((archive s₁).bytes.drop log.front.length) ∧
      ((archive s₁).bytes = log.bytes → String.join texts = log.text) ∧
      ('\uFFFD' ∉ log.text.toList → String.join texts = log.text →
        (archive s₁).bytes.drop log.front.length = Utf8.encode log.text) := by
  obtain ⟨r₀, s₁, shown, rest, stands, last, since, all, htexts, rfl⟩ :=
    h.outcome observes hopen (stands_start log) (Nat.zero_le _) complete.mono
  rw [List.nil_append] at stands
  obtain ⟨hafter, hfinal⟩ := observes.done last.done
  have hend : archive s' = ⟨log.bytes, true⟩ := (complete.eq_of_final (hfinal true rfl).symm).symm
  have hwritten : (archive s₁).bytes = log.bytes.take r₀.offset := by
    rw [← all]
    exact List.prefix_iff_eq_take.1 (hafter.trans complete).mono
  have hconsumed : (archive s₁).bytes.drop log.front.length = encodeChars shown ++ r₀.pending := by
    rw [hwritten, stands.consumed]
  have htext : String.join texts = lossy ((archive s₁).bytes.drop log.front.length) := by
    rw [hconsumed, lossy_encodeChars_append, htexts]
    rfl
  refine ⟨s₁, last, since, hafter, hend, hwritten, htext, fun hall => ?_, fun hno hwhole => ?_⟩
  · have hfinish := stands.finish (Nat.le_of_eq (by rw [← all, hall]))
    rw [htexts, hfinish, ← String.ofList_append, ← stands.text, String.ofList_toList]
  · -- the bytes shown are a beginning of the text that reads as all of it
    rw [hconsumed, Utf8.encode_eq]
    refine Utf8.eq_encodeChars_of_decodeLossy ⟨log.behind r₀.offset, ?_⟩ ?_ hno
    · rw [List.append_assoc, stands.held, stands.text, Utf8.encodeChars_append]
    · rw [htext, hconsumed, lossy] at hwhole
      rw [← hwhole, String.toList_ofList]

end Drains

/-! ## 5. A writer with a plan -/

def written (s : Archive × List (List Deed)) : Archive × List (List Deed) :=
  ((s.2.headD []).foldl Archive.after s.1, s.2.tail)

/-- A source whose writer acts by a plan, one part of it before each poll and before each
    answer about the status. -/
def interleaved : Source (Archive × List (List Deed)) :=
  { poll := fun offset s => (.ok (((written s).1.bytes.drop offset).take pieceSize), written s)
    done := fun s => (.ok (written s).1.final, written s)
    wait := fun _ s => (false, s) }

theorem observes_interleaved : Observes interleaved Prod.fst where
  poll := by
    rintro offset s result s₁ ⟨⟩
    refine ⟨Archive.becomes_foldl _ _, ?_⟩
    rintro piece ⟨⟩
    refine ⟨List.take_prefix _ _, fun hnone => ?_⟩
    rcases List.take_eq_nil_iff.1 hnone with hsize | hdrop
    · exact absurd hsize (by decide)
    · exact List.drop_eq_nil_iff.1 hdrop
  done := by
    rintro s answer s₁ ⟨⟩
    refine ⟨Archive.becomes_foldl _ _, ?_⟩
    rintro final ⟨⟩
    rfl
  wait := by
    rintro delay s stopped s₁ ⟨⟩
    exact .refl

/-- A character that is written in two parts, both of them before the last poll. -/
theorem growing_character :
    ∃ texts r s', Drains interleaved start
      (⟨[], false⟩, [[.append [0x02, 0xC3]], [.append [0xA9]], [], [.close]]) texts r s' ∧
      s'.1 = ⟨[0x02, 0xC3, 0xA9], true⟩ ∧ String.join texts = "é" := by
  let log : FramedLog :=
    { opened := true, text := "é", closed := none,
      no_end := by decide +kernel, no_start := by decide +kernel }
  have hmarker : (start.absorb [0x02, 0xC3]).2 = ⟨2, firstBackoff, false, [0xC3]⟩ := by
    decide +kernel
  have hreader : (LogReader.absorb ⟨2, firstBackoff, false, [0xC3]⟩ [0xA9]).2 =
      ⟨3, firstBackoff, false, []⟩ := by decide +kernel
  have hsecond : Reads interleaved ⟨2, firstBackoff, false, [0xC3]⟩
      (⟨[0x02, 0xC3], false⟩, [[.append [0xA9]], [], [.close]]) [0xA9] (.ok (some "é"))
      ⟨3, firstBackoff, false, []⟩ (⟨[0x02, 0xC3, 0xA9], false⟩, [[], [.close]]) := by
    rw [← hreader]
    exact .shown rfl rfl (by decide +kernel)
  rw [← hmarker] at hsecond
  have hpoll : interleaved.poll 0
      (⟨[], false⟩, [[.append [0x02, 0xC3]], [.append [0xA9]], [], [.close]]) =
      (.ok [0x02, 0xC3], ⟨[0x02, 0xC3], false⟩, [[.append [0xA9]], [], [.close]]) := rfl
  have hfirst := Reads.silent (r := start) rfl hpoll (by decide +kernel) hsecond
  have hall := ReadsAll.chunk hfirst (.of_ended rfl rfl rfl rfl)
  have hbytes : log.bytes = [0x02, 0xC3, 0xA9] := by decide +kernel
  have hend : Archive.Becomes ⟨[0x02, 0xC3, 0xA9], true⟩ ⟨log.bytes, true⟩ := by
    rw [hbytes]
    exact .refl
  obtain ⟨s₁, last, -, -, -, hwritten, -, hwhole, -⟩ :=
    text_at_last_poll observes_interleaved (show log.closed = none from rfl) hall.drains hend
  refine ⟨_, _, _, hall.drains, rfl, hwhole (hwritten.trans ?_)⟩
  rw [hbytes]
  rfl

/-- **What is written between the last poll and the answer is lost.**  Here the writer
    does its last two deeds there. -/
theorem tail_lost :
    let plan : List (List Deed) := [[.append [0x61]], [], [.append [0x62], .close]]
    let log : FramedLog :=
      { opened := false, text := "ab", closed := none,
        no_end := by decide +kernel, no_start := by decide +kernel }
    Observes interleaved Prod.fst ∧ ∃ r s',
      Drains interleaved start (⟨[], false⟩, plan) ["a"] r s' ∧ s'.1 = ⟨log.bytes, true⟩ ∧
      String.join ["a"] ≠ log.text := by
  intro plan log
  have hreader : (start.absorb [0x61]).2 = ⟨1, firstBackoff, false, []⟩ := by decide +kernel
  have hfirst : Reads interleaved start (⟨[], false⟩, plan) [0x61] (.ok (some "a"))
      ⟨1, firstBackoff, false, []⟩ (⟨[0x61], false⟩, plan.tail) := by
    rw [← hreader]
    exact .shown rfl rfl (by decide +kernel)
  have hall := ReadsAll.chunk hfirst (.of_ended rfl rfl rfl rfl)
  exact ⟨observes_interleaved, _, _, hall.drains, by decide +kernel, by decide +kernel⟩

end LogReader
end TerraformCloud
