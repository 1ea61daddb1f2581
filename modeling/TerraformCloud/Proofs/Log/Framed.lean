/-
  TerraformCloud/Proofs/Log/Framed.lean
  =====================================
  **A log is read as it was written, however it arrives.**

  A log is a text between two markers, either of which may be missing.  A server gives
  away a nonempty piece of what it has at every poll, or nothing, and pieces end where
  they like: inside a character, behind the first marker, in front of the second.

  `Stands` is the invariant that a reader keeps on such a log: what it has shown is a
  beginning of the text, and the bytes that it holds back together with those that have
  not arrived spell the rest.  A piece moves characters from the rest to what is shown
  (`Stands.absorb`), so by induction on what is left to arrive the whole text is shown
  (`exists_readsAll`).
-/
import TerraformCloud.Proofs.Log.Pieces

namespace TerraformCloud

open Utf8 (completePart encodeChars incompleteTail)

/-! ## 1. Logs and servers -/

/-- A log, complete. -/
structure FramedLog where
  /-- Whether the start marker stands in front. -/
  opened : Bool
  text : String
  /-- What stands behind the end marker, if there is one. -/
  closed : Option Bytes
  no_end : endMarker ∉ Utf8.encode text
  /-- Without a start marker the text does not look as if it had one. -/
  no_start : opened = false → (Utf8.encode text).head? ≠ some startMarker

namespace FramedLog

variable (log : FramedLog)

def front : Bytes := if log.opened then [startMarker] else []

def closing : Bytes :=
  match log.closed with
  | none => []
  | some behind => endMarker :: behind

/-- The log as it is stored. -/
def bytes : Bytes := log.front ++ Utf8.encode log.text ++ log.closing

/-- The bytes of the text that lie behind an offset. -/
def behind (offset : Nat) : Bytes := (Utf8.encode log.text).drop (offset - log.front.length)

end FramedLog

namespace LogReader

variable {σ : Type}

/-- A source that serves the bytes of a log from every state that is `ready`.  A poll
    brings a beginning of what lies behind the offset; when that is nothing, the owner
    says so for good only if all bytes were asked for, and `patience` bounds how often it
    says "not yet" in a row. -/
structure Serves (source : Source σ) (bytes : Bytes) (ready : σ → Prop) (patience : σ → Nat) :
    Prop where
  poll : ∀ offset s, ready s → ∃ piece, (source.poll offset s).1 = .ok piece ∧
    piece <+: bytes.drop offset ∧ (piece ≠ [] → ready (source.poll offset s).2)
  quiet : ∀ offset s, ready s → (source.poll offset s).1 = .ok [] →
    let asked := source.done (source.poll offset s).2
    (asked.1 = .ok true ∧ bytes.length ≤ offset) ∨
      (asked.1 = .ok false ∧ ∀ delay, (source.wait delay asked.2).1 = false ∧
        ready (source.wait delay asked.2).2 ∧ patience (source.wait delay asked.2).2 < patience s)

/-! ## 2. The invariant -/

/-- Where a reader stands that has shown the characters `shown` of a log and not yet the
    characters `rest`. -/
structure Stands (log : FramedLog) (r : LogReader) (shown rest : List Char) : Prop where
  unfinished : r.finished = false
  within : r.offset ≤ (log.front ++ Utf8.encode log.text).length
  text : log.text.toList = shown ++ rest
  held : r.pending ++ log.behind r.offset = encodeChars rest

theorem stands_start (log : FramedLog) : Stands log start [] log.text.toList where
  unfinished := rfl
  within := Nat.zero_le _
  text := rfl
  held := by simp [start, startingAt, FramedLog.behind, Utf8.encode_eq]

/-- Doubling the wait moves the reader nowhere. -/
theorem Stands.idle {log : FramedLog} {r : LogReader} {shown rest : List Char}
    (h : Stands log r shown rest) : Stands log r.idle.2 shown rest :=
  ⟨h.unfinished, h.within, h.text, h.held⟩

section Piece

variable {log : FramedLog} {r : LogReader} {piece : Bytes}

theorem front_length_le (log : FramedLog) : log.front.length ≤ 1 := by
  unfold FramedLog.front
  split <;> simp

theorem unframed_of_open (hoffset : r.offset = 0) (body : Bytes) :
    r.unframed (startMarker :: body) = body := by
  simp [unframed, hoffset]

/-- A log without a start marker does not begin with one. -/
theorem head_ne_startMarker (hopened : log.opened = false) {b : UInt8} {body : Bytes}
    (arrived : b :: body <+: Utf8.encode log.text ++ log.closing) : b ≠ startMarker := by
  obtain ⟨after, hafter⟩ := arrived
  intro hb
  subst hb
  cases htext : Utf8.encode log.text with
  | nil =>
    rw [htext, FramedLog.closing] at hafter
    split at hafter
    · cases hafter
    · exact absurd (List.cons.inj hafter).1 (by decide)
  | cons first _ =>
    rw [htext] at hafter
    have hhead := log.no_start hopened
    rw [htext, List.head?_cons, ← (List.cons.inj hafter).1] at hhead
    exact hhead rfl

/-- Behind the first byte, the bytes that have not arrived are those of the text and the
    end of the log. -/
theorem drop_bytes (hoffset : r.offset ≠ 0)
    (within : r.offset ≤ (log.front ++ Utf8.encode log.text).length) :
    log.bytes.drop r.offset = log.behind r.offset ++ log.closing := by
  have hfront := front_length_le log
  rw [List.length_append] at within
  rw [FramedLog.bytes, FramedLog.behind, List.append_assoc, List.drop_append, List.drop_append,
    List.drop_of_length_le (show log.front.length ≤ r.offset by omega), List.nil_append,
    show r.offset - log.front.length - (Utf8.encode log.text).length = 0 by omega, List.drop_zero]

/-- What a piece holds of the text: a beginning of what lies behind the offset. -/
theorem unframed_spec (within : r.offset ≤ (log.front ++ Utf8.encode log.text).length)
    (nonempty : piece ≠ []) (arrived : piece <+: log.bytes.drop r.offset) :
    r.unframed piece <+: log.behind r.offset ++ log.closing ∧
    log.behind (r.offset + piece.length) = (log.behind r.offset).drop (r.unframed piece).length ∧
    ((r.unframed piece).length ≤ (log.behind r.offset).length →
      r.offset + piece.length ≤ (log.front ++ Utf8.encode log.text).length) := by
  by_cases hoffset : r.offset = 0
  · obtain ⟨b, body, rfl⟩ := List.exists_cons_of_ne_nil nonempty
    rw [hoffset, List.drop_zero, FramedLog.bytes, List.append_assoc] at arrived
    cases hopened : log.opened with
    | true =>
      have hfront : log.front = [startMarker] := by simp [FramedLog.front, hopened]
      rw [hfront, List.singleton_append, List.cons_prefix_cons] at arrived
      obtain ⟨rfl, hbody⟩ := arrived
      rw [unframed_of_open hoffset]
      refine ⟨?_, ?_, ?_⟩
      · simpa [FramedLog.behind, hoffset] using hbody
      · simp [FramedLog.behind, hoffset, hfront]
      · simp only [FramedLog.behind, hoffset, hfront, List.length_drop, List.length_append,
          List.length_cons, List.length_nil]
        omega
    | false =>
      have hfront : log.front = [] := by simp [FramedLog.front, hopened]
      rw [hfront, List.nil_append] at arrived
      have hunframed : r.unframed (b :: body) = b :: body := by
        simp [unframed, head_ne_startMarker hopened arrived]
      rw [hunframed]
      refine ⟨?_, ?_, ?_⟩
      · simpa [FramedLog.behind, hoffset] using arrived
      · simp [FramedLog.behind, hoffset, hfront]
      · simp [FramedLog.behind, hoffset, hfront]
  · -- the marker is not looked for again
    have hfront := front_length_le log
    have hunframed : r.unframed piece = piece := by simp [unframed, hoffset]
    rw [hunframed]
    rw [drop_bytes hoffset within] at arrived
    refine ⟨arrived, ?_, ?_⟩
    · have hshift : r.offset - log.front.length + piece.length =
          r.offset + piece.length - log.front.length := by omega
      rw [FramedLog.behind, FramedLog.behind, List.drop_drop, hshift]
    · rw [List.length_append] at within ⊢
      rw [FramedLog.behind, List.length_drop]
      omega

end Piece

/-! ## 3. What a piece does -/

theorem lossy_encodeChars (cs : List Char) : lossy (encodeChars cs) = String.ofList cs := by
  rw [lossy, Utf8.decodeLossy_encodeChars]

theorem lossy_encodeChars_append (cs : List Char) (tail : Bytes) :
    lossy (encodeChars cs ++ tail) = String.ofList cs ++ lossy tail := by
  rw [lossy, Utf8.decodeLossy_encodeChars_append, String.ofList_append]
  rfl

/-- A piece without an end marker shows the whole characters and holds back the tail. -/
theorem absorb_of_no_end {r : LogReader} {piece tail : Bytes} {more : List Char}
    (hno : endMarker ∉ r.unframed piece)
    (hbytes : r.pending ++ r.unframed piece = encodeChars more ++ tail)
    (htail : incompleteTail (r.pending ++ r.unframed piece) = tail) :
    r.absorb piece = (String.ofList more,
      { r with offset := r.offset + piece.length, backoff := firstBackoff, pending := tail }) := by
  have hwhole : completePart (r.pending ++ r.unframed piece) = encodeChars more := by
    rw [completePart, htail, hbytes, List.length_append, Nat.add_sub_cancel, List.take_left]
  rw [absorb_of_not_mem hno, hwhole, htail, lossy_encodeChars]

/-- A piece with an end marker shows everything in front of it. -/
theorem absorb_of_end {r : LogReader} {piece before trailing : Bytes} {more : List Char}
    (hbody : r.unframed piece = before ++ endMarker :: trailing) (hno : endMarker ∉ before)
    (hbytes : r.pending ++ before = encodeChars more) :
    r.absorb piece = (String.ofList more,
      { r with
        offset := r.offset + piece.length, backoff := firstBackoff, finished := true,
        pending := [] }) := by
  have htext : (r.unframed piece).takeWhile (fun b => b ≠ endMarker) = before := by
    rw [hbody, takeWhile_of_no_end hno]
    simp
  have hlength : before.length < (r.unframed piece).length := by
    rw [hbody, List.length_append, List.length_cons]
    omega
  unfold LogReader.absorb
  dsimp only
  rw [htext, if_pos hlength, hbytes, lossy_encodeChars]

section Absorb

variable {log : FramedLog} {r : LogReader} {shown rest : List Char} {piece : Bytes}

/-- The end marker does not stand in the text, so not behind an offset either. -/
theorem endMarker_not_mem_behind (log : FramedLog) (offset : Nat) :
    endMarker ∉ log.behind offset := by
  intro h
  exact log.no_end (List.mem_of_mem_drop h)

/-- A piece that ends within the text. -/
theorem Stands.absorb_within (h : Stands log r shown rest) (nonempty : piece ≠ [])
    (arrived : piece <+: log.bytes.drop r.offset)
    (hlength : (r.unframed piece).length ≤ (log.behind r.offset).length) :
    ∃ more rest', rest = more ++ rest' ∧ (r.absorb piece).1 = String.ofList more ∧
      Stands log (r.absorb piece).2 (shown ++ more) rest' := by
  obtain ⟨hbody, hbehind, hwithin⟩ := unframed_spec h.within nonempty arrived
  have hcut : r.unframed piece <+: log.behind r.offset :=
    List.prefix_of_prefix_length_le hbody (List.prefix_append _ _) hlength
  have hno : endMarker ∉ r.unframed piece := fun hmem =>
    endMarker_not_mem_behind log r.offset (hcut.subset hmem)
  obtain ⟨left, hleft⟩ := hcut
  rw [← hleft, List.drop_left] at hbehind
  have hheld : (r.pending ++ r.unframed piece) ++ left = encodeChars rest := by
    rw [List.append_assoc, hleft, h.held]
  -- what was held back and what arrived is some characters and a tail
  obtain ⟨more, rest', hsplit, htail⟩ := Utf8.split_of_prefix ⟨left, hheld⟩
  rw [absorb_of_no_end hno htail rfl]
  refine ⟨more, rest', hsplit, rfl, h.unfinished, hwithin hlength, ?_, ?_⟩
  · rw [h.text, hsplit, List.append_assoc]
  · dsimp only
    rw [htail, hsplit, Utf8.encodeChars_append, List.append_assoc] at hheld
    rw [hbehind]
    exact List.append_cancel_left hheld

/-- A piece that reaches the end marker. -/
theorem Stands.absorb_end (h : Stands log r shown rest) (nonempty : piece ≠ [])
    (arrived : piece <+: log.bytes.drop r.offset)
    (hlength : (log.behind r.offset).length < (r.unframed piece).length) :
    (r.absorb piece).1 = String.ofList rest ∧ (r.absorb piece).2.finished = true := by
  obtain ⟨hbody, -, -⟩ := unframed_spec h.within nonempty arrived
  obtain ⟨c, hc⟩ := List.prefix_of_prefix_length_le (List.prefix_append _ _) hbody
    (Nat.le_of_lt hlength)
  rw [← hc, List.prefix_append_right_inj] at hbody
  -- behind the text stands the end marker, or nothing
  have hend : ∃ trailing, c = endMarker :: trailing := by
    rw [FramedLog.closing] at hbody
    match c, hbody with
    | [], _ =>
      rw [← hc, List.append_nil] at hlength
      exact absurd hlength (Nat.lt_irrefl _)
    | b :: trailing, hbody =>
      split at hbody
      · exact absurd (List.prefix_nil.1 hbody) (List.cons_ne_nil _ _)
      · exact ⟨trailing, by rw [(List.cons_prefix_cons.1 hbody).1]⟩
  obtain ⟨trailing, rfl⟩ := hend
  rw [absorb_of_end hc.symm (endMarker_not_mem_behind log r.offset) h.held]
  exact ⟨rfl, rfl⟩

/-- **A piece moves characters from the rest to what is shown**, or everything that is
    left, and then the log is over. -/
theorem Stands.absorb (h : Stands log r shown rest) (nonempty : piece ≠ [])
    (arrived : piece <+: log.bytes.drop r.offset) :
    ∃ more rest', rest = more ++ rest' ∧ (r.absorb piece).1 = String.ofList more ∧
      (Stands log (r.absorb piece).2 (shown ++ more) rest' ∨
        ((r.absorb piece).2.finished = true ∧ rest' = [])) := by
  rcases Nat.lt_or_ge (log.behind r.offset).length (r.unframed piece).length with hlength | hlength
  · obtain ⟨htext, hfinished⟩ := h.absorb_end nonempty arrived hlength
    exact ⟨rest, [], (List.append_nil _).symm, htext, Or.inr ⟨hfinished, rfl⟩⟩
  · obtain ⟨more, rest', hsplit, htext, hstands⟩ := h.absorb_within nonempty arrived hlength
    exact ⟨more, rest', hsplit, htext, Or.inl hstands⟩

/-- When all bytes have arrived, what is held back is the rest. -/
theorem Stands.finish (h : Stands log r shown rest) (all : log.bytes.length ≤ r.offset) :
    r.finish.1 = String.ofList rest := by
  have hbehind : log.behind r.offset = [] := by
    rw [FramedLog.bytes, List.append_assoc, List.length_append, List.length_append] at all
    exact List.drop_of_length_le (by omega)
  have hheld := h.held
  rw [hbehind, List.append_nil] at hheld
  rw [LogReader.finish, hheld, lossy_encodeChars]

/-- The text in front of the offset is what was shown, and what is held back. -/
theorem Stands.consumed (h : Stands log r shown rest) :
    (log.bytes.take r.offset).drop log.front.length = encodeChars shown ++ r.pending := by
  have htake : (log.bytes.take r.offset).drop log.front.length =
      (Utf8.encode log.text).take (r.offset - log.front.length) := by
    rw [FramedLog.bytes, List.take_append_of_le_length h.within, List.drop_take, List.drop_left]
  have hsplit : (encodeChars shown ++ r.pending) ++ log.behind r.offset = Utf8.encode log.text := by
    rw [List.append_assoc, h.held, ← Utf8.encodeChars_append, ← h.text, Utf8.encode_eq]
  have hcut := List.take_append_drop (r.offset - log.front.length) (Utf8.encode log.text)
  rw [htake]
  exact List.append_cancel_right (hcut.trans hsplit.symm)

end Absorb

/-! ## 4. The whole log

What is left to arrive gets less with every nonempty piece, and `patience` with every
empty one. -/

section Whole

variable {log : FramedLog} {source : Source σ} {ready : σ → Prop} {patience : σ → Nat}

theorem lt_of_arrived {piece bytes : Bytes} {offset : Nat} (nonempty : piece ≠ [])
    (arrived : piece <+: bytes.drop offset) :
    bytes.length - (offset + piece.length) < bytes.length - offset := by
  have hlength := arrived.length_le
  rw [List.length_drop] at hlength
  have hpos := List.length_pos_iff.2 nonempty
  omega

/-- **From wherever a reader stands, it shows the rest.** -/
theorem exists_readsAll (serves : Serves source log.bytes ready patience) (r : LogReader) (s : σ)
    {shown rest : List Char} (stands : Stands log r shown rest) (hready : ready s) :
    ∃ received texts r' s', ReadsAll source r s received texts r' s' ∧
      String.join texts = String.ofList rest ∧ r'.finished = true ∧
      r'.offset = r.offset + received.length := by
  obtain ⟨piece, hpoll, arrived, hready'⟩ := serves.poll r.offset s hready
  cases piece with
  | nil =>
    rcases serves.quiet r.offset s hready hpoll with ⟨hdone, all⟩ | ⟨hdone, hwait⟩
    · obtain ⟨texts, hreads, htexts⟩ :=
        ReadsAll.of_nothingLeft stands.unfinished (Prod.ext hpoll rfl) (Prod.ext hdone rfl)
      exact ⟨[], texts, _, _, hreads, htexts.trans (stands.finish all), rfl, rfl⟩
    · obtain ⟨hwait, hagain, hless⟩ := hwait r.idle.1
      obtain ⟨received, texts, r', s', hreads, htexts, hfinished, hoffset⟩ :=
        exists_readsAll serves r.idle.2 _ stands.idle hagain
      exact ⟨received, texts, r', s', ReadsAll.of_idle stands.unfinished (Prod.ext hpoll rfl)
        (Prod.ext hdone rfl) (Prod.ext hwait rfl) hreads, htexts, hfinished, hoffset⟩
  | cons b raw =>
    have hless := lt_of_arrived (List.cons_ne_nil b raw) arrived
    obtain ⟨more, rest', hsplit, hmore, hnext⟩ := stands.absorb (List.cons_ne_nil b raw) arrived
    have hlater : ∃ received texts r' s',
        ReadsAll source (r.absorb (b :: raw)).2 (source.poll r.offset s).2 received texts r' s' ∧
        String.join texts = String.ofList rest' ∧ r'.finished = true ∧
        r'.offset = (r.absorb (b :: raw)).2.offset + received.length := by
      rcases hnext with hstands | ⟨hfinished, rfl⟩
      · exact exists_readsAll serves _ _ hstands (hready' (List.cons_ne_nil b raw))
      · exact ⟨[], [], _, _, .stop (.ended hfinished), rfl, hfinished, rfl⟩
    obtain ⟨received, texts, r', s', hreads, htexts, hfinished, hoffset⟩ := hlater
    obtain ⟨all, hall, hjoin⟩ :=
      ReadsAll.of_piece stands.unfinished (Prod.ext hpoll rfl) hreads
    refine ⟨_, all, r', s', hall, ?_, hfinished, ?_⟩
    · rw [hjoin, hmore, htexts, hsplit, String.ofList_append]
    · rw [hoffset, absorb_offset, List.length_append, Nat.add_assoc]
termination_by (log.bytes.length - r.offset, patience s)
decreasing_by
  · exact Prod.Lex.right _ hless
  · exact Prod.Lex.left _ _ (by rw [absorb_offset]; exact hless)

/-- **A log is read as it was written.**  With enough fuel, `readAll` gives the text of
    the log and `readSome` its chunks; afterwards the reader is finished, has counted the
    bytes that arrived, and asks no source for anything any more. -/
theorem readAll_text (log : FramedLog) (serves : Serves source log.bytes ready patience) (s : σ)
    (hready : ready s) :
    ∃ chunks r s' received least,
      (∀ fuel pieces, least ≤ fuel → least ≤ pieces →
        readAll source.metered fuel pieces start (s, []) =
          (some (.ok log.text), r, (s', received)) ∧
        ∃ shown, readSome source.metered fuel pieces start (s, []) =
          (some (.ok shown), r, (s', received)) ∧ shown.map Prod.fst = chunks) ∧
      String.join chunks = log.text ∧ r.finished = true ∧ r.offset = received.length ∧
      ∀ {τ : Type} (other : Source τ) (fuel : Nat) (t : τ),
        next other (fuel + 1) r t = (some (.ok none), r, t) := by
  obtain ⟨received, texts, r, s', hreads, htexts, hfinished, hoffset⟩ :=
    exists_readsAll serves start s (stands_start log) hready
  rw [String.ofList_toList] at htexts
  obtain ⟨least, hall⟩ := hreads.readAll_eq
  obtain ⟨least', hsome⟩ := hreads.readSome_eq
  refine ⟨texts, r, s', received, least + least', fun fuel pieces hfuel hpieces => ⟨?_, ?_⟩,
    htexts, hfinished, ?_, fun other fuel t => next_of_finished other fuel hfinished t⟩
  · rw [hall fuel pieces (by omega) (by omega), htexts, List.nil_append]
  · exact hsome fuel pieces (by omega) (by omega) []
  · rw [hoffset]
    exact Nat.zero_add _

end Whole

/-! ## 5. A server with a schedule -/

/-- A server that brings so many bytes at most, poll by poll, and behind its schedule
    everything.  Its owner is done once all bytes were asked for. -/
def scheduled (bytes : Bytes) : Source (List Nat × Bool) :=
  { poll := fun offset s =>
      match s.1 with
      | [] => (.ok (bytes.drop offset), ([], decide (bytes.length ≤ offset)))
      | n :: later => (.ok ((bytes.drop offset).take n), (later, decide (bytes.length ≤ offset)))
    done := fun s => (.ok s.2, s)
    wait := fun _ s => (false, s) }

theorem serves_scheduled (bytes : Bytes) :
    Serves (scheduled bytes) bytes (fun _ => True) (fun s => s.1.length) where
  poll := by
    rintro offset ⟨schedule, asked⟩ -
    cases schedule with
    | nil => exact ⟨_, rfl, List.prefix_rfl, fun _ => trivial⟩
    | cons n later => exact ⟨_, rfl, List.take_prefix _ _, fun _ => trivial⟩
  quiet := by
    rintro offset ⟨schedule, asked⟩ - hpoll
    by_cases hall : bytes.length ≤ offset
    · refine Or.inl ⟨?_, hall⟩
      cases schedule <;> simp [scheduled, hall]
    · refine Or.inr ⟨?_, fun delay => ⟨rfl, trivial, ?_⟩⟩
      · cases schedule <;> simp [scheduled, hall]
      · cases schedule with
        | nil =>
          have hdrop : bytes.drop offset = [] := Except.ok.inj hpoll
          exact absurd (List.drop_eq_nil_iff.1 hdrop) hall
        | cons n later => exact Nat.lt_succ_self _

/-- A log of six bytes, cut behind its marker and inside a character, with an empty
    piece in between. -/
theorem readAll_cut_inside_character :
    ∃ r s' received least, ∀ fuel pieces, least ≤ fuel → least ≤ pieces →
      readAll (scheduled [0x02, 0x61, 0xC3, 0xA9, 0x03, 0x21]).metered fuel pieces start
        (([1, 2, 0, 1], false), []) = (some (.ok "aé"), r, (s', received)) := by
  let log : FramedLog :=
    { opened := true, text := "aé", closed := some [0x21],
      no_end := by decide +kernel, no_start := by decide +kernel }
  have hbytes : log.bytes = [0x02, 0x61, 0xC3, 0xA9, 0x03, 0x21] := by decide +kernel
  obtain ⟨chunks, r, s', received, least, hreads, -⟩ :=
    readAll_text log (serves_scheduled log.bytes) ([1, 2, 0, 1], false) trivial
  rw [hbytes] at hreads
  exact ⟨r, s', received, least, fun fuel pieces hfuel hpieces =>
    (hreads fuel pieces hfuel hpieces).1⟩

end LogReader
end TerraformCloud
