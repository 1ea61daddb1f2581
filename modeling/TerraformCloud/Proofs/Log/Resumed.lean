/-
  TerraformCloud/Proofs/Log/Resumed.lean
  ======================================
  **Going on where another reader stopped.**

  A reader says how many bytes it has received, and another one can start behind them.
  The text of both together is the text of the log exactly if the first one stopped
  `AtSeam`.  Nothing is held back there: the bytes of a character that has only begun to
  arrive are counted, but lost to the reader that goes on, which then shows the rest of
  the character as ill formed (`showing_continuation`).

  Where the first reader stands after any number of chunks (`Reached`) is kept by every
  chunk, so by induction it holds of every point at which a reader can be abandoned.
-/
import TerraformCloud.Proofs.Log.Framed

namespace TerraformCloud

open Utf8 (encodeChars incompleteTail isContinuation)

namespace LogReader

variable {σ τ : Type} {log : FramedLog}

/-! ## 1. Where a reader can be abandoned -/

/-- Where a reader and its source stand between two chunks. -/
inductive Reached (log : FramedLog) (ready : σ → Prop) (r : LogReader) (s : σ)
    (shown : List Char) : Prop where
  | within {rest : List Char} (stands : Stands log r shown rest) (ready : ready s)
      (held : incompleteTail r.pending = r.pending)
  | ended (finished : r.finished = true) (complete : r.pending = [])
      (all : log.text.toList = shown) (counted : r.offset ≠ 0 ∨ log.bytes.length ≤ r.offset)

section Reached

variable {source : Source σ} {ready : σ → Prop} {patience : σ → Nat} {r r' : LogReader}
  {s s' : σ} {shown : List Char}

theorem absorb_pending (r : LogReader) (piece : Bytes) :
    incompleteTail (r.absorb piece).2.pending = (r.absorb piece).2.pending := by
  unfold LogReader.absorb
  dsimp only
  split
  · rw [incompleteTail]
  · exact Utf8.incompleteTail_incompleteTail _

theorem absorb_complete {piece : Bytes} (unfinished : r.finished = false)
    (ended : (r.absorb piece).2.finished = true) : (r.absorb piece).2.pending = [] := by
  unfold LogReader.absorb at ended ⊢
  dsimp only at ended ⊢
  split at ended
  · next hend => rw [if_pos hend]
  · exact absurd (unfinished.symm.trans ended) Bool.false_ne_true

theorem Reached.absorb {rest : List Char} {piece : Bytes} (stands : Stands log r shown rest)
    (nonempty : piece ≠ []) (arrived : piece <+: log.bytes.drop r.offset) (hready : ready s') :
    ∃ more, (r.absorb piece).1 = String.ofList more ∧
      Reached log ready (r.absorb piece).2 s' (shown ++ more) := by
  obtain ⟨more, rest', hsplit, htext, hnext⟩ := stands.absorb nonempty arrived
  refine ⟨more, htext, ?_⟩
  rcases hnext with hstands | ⟨hended, rfl⟩
  · exact .within hstands hready (absorb_pending r piece)
  · refine .ended hended (absorb_complete stands.unfinished hended) ?_ (Or.inl ?_)
    · rw [stands.text, hsplit, List.append_nil]
    · have hpos := List.length_pos_iff.2 nonempty
      rw [absorb_offset]
      omega

section Serves

variable {bytes : Bytes} {offset : Nat} {s₁ s₂ s₃ : σ}

theorem Serves.arrived (serves : Serves source bytes ready patience) (hready : ready s)
    {piece : Bytes} (poll : source.poll offset s = (.ok piece, s₁)) :
    piece <+: bytes.drop offset ∧ (piece ≠ [] → ready s₁) := by
  obtain ⟨piece', hpiece, arrived, hready'⟩ := serves.poll offset s hready
  rw [poll] at hpiece hready'
  cases hpiece
  exact ⟨arrived, hready'⟩

theorem Serves.all_asked (serves : Serves source bytes ready patience) (hready : ready s)
    (poll : source.poll offset s = (.ok [], s₁)) (done : source.done s₁ = (.ok true, s₂)) :
    bytes.length ≤ offset := by
  have hquiet := serves.quiet offset s hready (by rw [poll])
  rw [poll] at hquiet
  rcases hquiet with ⟨-, all⟩ | ⟨hfalse, -⟩
  · exact all
  · rw [done] at hfalse
    cases hfalse

theorem Serves.again (serves : Serves source bytes ready patience) (hready : ready s)
    (poll : source.poll offset s = (.ok [], s₁)) (done : source.done s₁ = (.ok false, s₂))
    {delay : Duration} {stopped : Bool} (wait : source.wait delay s₂ = (stopped, s₃)) :
    ready s₃ := by
  have hquiet := serves.quiet offset s hready (by rw [poll])
  rw [poll] at hquiet
  rcases hquiet with ⟨htrue, -⟩ | ⟨-, hwait⟩
  · rw [done] at htrue
    cases htrue
  · obtain ⟨-, hready', -⟩ := hwait delay
    rw [done] at hready'
    dsimp only at hready'
    rwa [wait] at hready'

end Serves

theorem Reached.exists_stands (reached : Reached log ready r s shown)
    (unfinished : r.finished = false) :
    ∃ rest, Stands log r shown rest ∧ ready s ∧ incompleteTail r.pending = r.pending := by
  cases reached with
  | within stands hready held => exact ⟨_, stands, hready, held⟩
  | ended finished => exact absurd (unfinished.symm.trans finished) Bool.false_ne_true

/-- **A chunk takes a reader on.** -/
theorem Reached.reads (serves : Serves source log.bytes ready patience) {received : Bytes}
    {chunk : Option String} (h : Reads source r s received (.ok chunk) r' s')
    (reached : Reached log ready r s shown) :
    ∃ more, chunk.getD "" = String.ofList more ∧ Reached log ready r' s' (shown ++ more) := by
  generalize hout : Except.ok chunk = out at h
  induction h generalizing shown with
  | ended _ =>
    obtain rfl : chunk = none := Except.ok.inj hout
    exact ⟨[], rfl, by rw [List.append_nil]; exact reached⟩
  | pollFails => cases hout
  | ownerFails => cases hout
  | interrupted => cases hout
  | nothingLeft unfinished poll done =>
    obtain rfl := Except.ok.inj hout
    obtain ⟨rest, stands, hready, held⟩ := reached.exists_stands unfinished
    have all := serves.all_asked hready poll done
    refine ⟨rest, ?_, .ended rfl rfl stands.text (Or.inr all)⟩
    rw [ReadsAll.getD_nonempty, stands.finish all]
  | idle unfinished poll done wait later ih =>
    obtain ⟨rest, stands, hready, held⟩ := reached.exists_stands unfinished
    exact ih (.within stands.idle (serves.again hready poll done wait) held) hout
  | @shown r s s₁ b raw text unfinished poll text_eq =>
    obtain rfl := Except.ok.inj hout
    obtain ⟨rest, stands, hready, held⟩ := reached.exists_stands unfinished
    obtain ⟨arrived, hready'⟩ := serves.arrived hready poll
    obtain ⟨more, htext, hreached⟩ :=
      Reached.absorb stands (List.cons_ne_nil b raw) arrived (hready' (List.cons_ne_nil b raw))
    exact ⟨more, (ReadsAll.nonempty_eq_some text_eq).trans htext, hreached⟩
  | @silent r r' s s₁ s' b raw received out unfinished poll no_text later ih =>
    obtain ⟨rest, stands, hready, held⟩ := reached.exists_stands unfinished
    obtain ⟨arrived, hready'⟩ := serves.arrived hready poll
    obtain ⟨more, htext, hreached⟩ :=
      Reached.absorb stands (List.cons_ne_nil b raw) arrived (hready' (List.cons_ne_nil b raw))
    rw [ReadsAll.nonempty_eq_none no_text] at htext
    have hnone : more = [] := String.ofList_eq_empty_iff.1 htext.symm
    rw [hnone, List.append_nil] at hreached
    exact ih hreached hout

/-- **So does any number of chunks.** -/
theorem Reached.readSome (serves : Serves source log.bytes ready patience) {fuel calls : Nat}
    {chunks : List (String × LogReader)}
    (h : LogReader.readSome source fuel calls r s = (some (.ok chunks), r', s'))
    (reached : Reached log ready r s shown) :
    ∃ more, String.join (chunks.map Prod.fst) = String.ofList more ∧
      Reached log ready r' s' (shown ++ more) := by
  induction calls generalizing r s shown chunks with
  | zero =>
    cases h
    exact ⟨[], rfl, by rw [List.append_nil]; exact reached⟩
  | succ calls ih =>
    rw [LogReader.readSome] at h
    rcases hnext : next source fuel r s with ⟨_ | e | _ | text, r₁, s₁⟩
    all_goals rw [hnext] at h; dsimp only at h
    · cases h
    · cases h
    · cases h
      obtain ⟨_, hreads⟩ := reads_of_next hnext
      obtain ⟨more, hmore, hreached⟩ := reached.reads serves hreads
      exact ⟨more, hmore, hreached⟩
    · obtain ⟨_, hreads⟩ := reads_of_next hnext
      obtain ⟨more, hmore, hreached⟩ := reached.reads serves hreads
      rcases hrest : LogReader.readSome source fuel calls r₁ s₁ with ⟨_ | e | rest, r₂, s₂⟩
      all_goals rw [hrest] at h; cases h
      obtain ⟨more', hmore', hreached'⟩ := ih hrest hreached
      refine ⟨more ++ more', ?_, ?_⟩
      · rw [List.map_cons, String.join_cons, hmore', String.ofList_append, ← hmore]
        rfl
      · rw [← List.append_assoc]
        exact hreached'

end Reached

/-! ## 2. What the next reader receives

It starts with nothing held back, and behind the end of the log or inside a character.
There `Stands` does not hold, so what it shows is read off its pieces. -/

section Receives

variable {bytes : Bytes} {source : Source σ} {ready : σ → Prop} {patience : σ → Nat}

/-- A reader receives a beginning of what lies behind its offset, nothing only if nothing
    does. -/
theorem Serves.exists_receives (serves : Serves source bytes ready patience) (r : LogReader)
    (s : σ) (unfinished : r.finished = false) (hready : ready s) :
    ∃ pieces, Receives source r s pieces ∧ (∀ piece ∈ pieces, piece ≠ []) ∧
      pieces.flatten <+: bytes.drop r.offset ∧ (pieces = [] → bytes.length ≤ r.offset) := by
  obtain ⟨piece, hpoll, arrived, hready'⟩ := serves.poll r.offset s hready
  cases piece with
  | nil =>
    rcases serves.quiet r.offset s hready hpoll with ⟨hdone, all⟩ | ⟨hdone, hwait⟩
    · exact ⟨[], .ended unfinished (Prod.ext hpoll rfl) (Prod.ext hdone rfl),
        fun _ hmem => absurd hmem List.not_mem_nil, List.nil_prefix, fun _ => all⟩
    · obtain ⟨hwait, hagain, hless⟩ := hwait r.idle.1
      obtain ⟨pieces, hreceives, hpieces⟩ :=
        exists_receives serves r.idle.2 _ unfinished hagain
      exact ⟨pieces, .idle unfinished (Prod.ext hpoll rfl) (Prod.ext hdone rfl)
        (Prod.ext hwait rfl) hreceives, hpieces⟩
  | cons b raw =>
    have hless := lt_of_arrived (List.cons_ne_nil b raw) arrived
    cases hfinished : (r.absorb (b :: raw)).2.finished with
    | true =>
      refine ⟨[b :: raw], .last unfinished (Prod.ext hpoll rfl) hfinished, ?_, ?_,
        fun h => absurd h (List.cons_ne_nil _ _)⟩
      · intro piece hmem
        rw [List.mem_singleton.1 hmem]
        exact List.cons_ne_nil b raw
      · rwa [List.flatten_singleton]
    | false =>
      obtain ⟨pieces, hreceives, hfull, hpieces, -⟩ :=
        exists_receives serves _ _ hfinished (hready' (List.cons_ne_nil b raw))
      refine ⟨(b :: raw) :: pieces, .piece unfinished (Prod.ext hpoll rfl) hreceives, ?_, ?_,
        fun h => absurd h (List.cons_ne_nil _ _)⟩
      · intro piece hmem
        rcases List.mem_cons.1 hmem with rfl | hmem
        · exact List.cons_ne_nil b raw
        · exact hfull piece hmem
      · obtain ⟨behind, hbehind⟩ := arrived
        rw [absorb_offset, ← List.drop_drop, ← hbehind, List.drop_left] at hpieces
        rw [List.flatten_cons, ← hbehind]
        exact (List.prefix_append_right_inj _).2 hpieces
-- an empty poll takes from the patience, any other one from the bytes that are left
termination_by (bytes.length - r.offset, patience s)
decreasing_by
  · exact Prod.Lex.right _ hless
  · exact Prod.Lex.left _ _ (by rw [absorb_offset]; exact hless)

end Receives

section Showing

variable {r : LogReader} {pieces : List Bytes}

theorem unframed_of_offset (h : r.offset ≠ 0) (piece : Bytes) : r.unframed piece = piece := by
  rw [unframed, if_neg]
  exact fun hstart => h hstart.1

theorem lossy_ne_empty {bytes : Bytes} (h : bytes ≠ []) : lossy bytes ≠ "" := by
  obtain ⟨b, rest, rfl⟩ := List.exists_cons_of_ne_nil h
  rw [lossy, Utf8.decodeLossy_cons]
  intro hempty
  exact absurd (String.ofList_eq_empty_iff.1 hempty) (List.cons_ne_nil _ _)

/-- A piece that brings something to show shows it, or holds it back. -/
theorem absorb_shows {piece : Bytes}
    (h : r.pending ++ (r.unframed piece).takeWhile (fun b => b ≠ endMarker) ≠ []) :
    (r.absorb piece).1 ≠ "" ∨
      ((r.absorb piece).2.finished = r.finished ∧ (r.absorb piece).2.pending ≠ []) := by
  unfold LogReader.absorb
  dsimp only
  split
  · exact Or.inl (lossy_ne_empty h)
  · by_cases hshown : Utf8.completePart
        (r.pending ++ (r.unframed piece).takeWhile (fun b => b ≠ endMarker)) = []
    · refine Or.inr ⟨rfl, fun hnone => h ?_⟩
      have hsplit := (Utf8.completePart_spec
        (r.pending ++ (r.unframed piece).takeWhile (fun b => b ≠ endMarker))).1
      rw [hshown] at hsplit
      exact hsplit.symm.trans hnone
    · exact Or.inl (lossy_ne_empty hshown)

theorem showing_ne_empty_of_pending (unfinished : r.finished = false) (h : r.pending ≠ []) :
    r.showing pieces ≠ "" := by
  induction pieces generalizing r with
  | nil => exact lossy_ne_empty h
  | cons piece later ih =>
    have hbytes : r.pending ++ (r.unframed piece).takeWhile (fun b => b ≠ endMarker) ≠ [] :=
      fun hnone => h (List.append_eq_nil_iff.1 hnone).1
    rw [showing]
    rcases absorb_shows hbytes with hshown | ⟨hunfinished, hpending⟩
    · exact fun hnone => hshown (String.append_eq_empty_iff.1 hnone).1
    · rw [hunfinished, unfinished, if_neg Bool.false_ne_true]
      exact fun hnone => ih (hunfinished.trans unfinished) hpending
        (String.append_eq_empty_iff.1 hnone).2

theorem showing_ne_empty {b : UInt8} {raw : Bytes} (unfinished : r.finished = false)
    (offset : r.offset ≠ 0) (hb : b ≠ endMarker) : r.showing ((b :: raw) :: pieces) ≠ "" := by
  have hunframed := unframed_of_offset offset (b :: raw)
  have hbytes :
      r.pending ++ (r.unframed (b :: raw)).takeWhile (fun b => b ≠ endMarker) ≠ [] := by
    rw [hunframed, List.takeWhile_cons_of_pos (by simpa using hb)]
    exact fun hnone => absurd (List.append_eq_nil_iff.1 hnone).2 (List.cons_ne_nil _ _)
  rw [showing]
  rcases absorb_shows hbytes with hshown | ⟨hunfinished, hpending⟩
  · exact fun hnone => hshown (String.append_eq_empty_iff.1 hnone).1
  · rw [hunfinished, unfinished, if_neg Bool.false_ne_true]
    exact fun hnone => showing_ne_empty_of_pending (hunfinished.trans unfinished) hpending
      (String.append_eq_empty_iff.1 hnone).2

/-- The rest of a character shows as ill formed. -/
theorem showing_continuation {b : UInt8} {raw : Bytes} (offset : r.offset ≠ 0)
    (complete : r.pending = []) (hb : isContinuation b = true) :
    ∃ more, r.showing ((b :: raw) :: pieces) = "\uFFFD" ++ more := by
  have hunframed := unframed_of_offset offset (b :: raw)
  have hend : b ≠ endMarker := by
    rintro rfl
    exact absurd hb (by decide)
  have hfirst : ∀ rest, lossy (b :: rest) = "\uFFFD" ++ lossy rest := by
    intro rest
    rw [lossy, Utf8.decodeLossy_cons, Utf8.next_of_isContinuation hb, ← List.singleton_append,
      String.ofList_append]
    rfl
  have habsorb : ∃ more, (r.absorb (b :: raw)).1 = "\uFFFD" ++ more := by
    unfold LogReader.absorb
    dsimp only
    rw [hunframed, complete, List.nil_append,
      List.takeWhile_cons_of_pos (by simpa using hend)]
    split
    · exact ⟨_, hfirst _⟩
    · rw [Utf8.incompleteTail_of_broken (Utf8.next_of_isContinuation hb _), List.length_nil,
        Nat.sub_zero, List.take_length]
      exact ⟨_, hfirst _⟩
  obtain ⟨more, hmore⟩ := habsorb
  rw [showing, hmore, String.append_assoc]
  exact ⟨_, rfl⟩

end Showing

/-! ## 3. Two readers

The first one stands at a seam, holds something back, or is finished; the three cases
have nothing in common but their conclusion. -/

/-- A reader that another one can go on from: it holds nothing back, and if it is
    finished, only an end marker can follow what it has received. -/
structure AtSeam (log : FramedLog) (r : LogReader) : Prop where
  complete : r.pending = []
  closed : r.finished = true → ∀ b ∈ (log.bytes.drop r.offset).head?, b = endMarker

section Resumed

variable {source : Source τ} {ready : τ → Prop} {patience : τ → Nat} {r : LogReader} {t : τ}

theorem head?_of_pieces {bytes : Bytes} {b : UInt8} {raw : Bytes} {later : List Bytes}
    (h : ((b :: raw) :: later).flatten <+: bytes) : bytes.head? = some b := by
  obtain ⟨behind, rfl⟩ := h
  rfl

/-- Behind the end of a log, the next reader shows nothing only at an end marker. -/
theorem showing_behind {pieces : List Bytes} (full : ∀ piece ∈ pieces, piece ≠ [])
    (arrived : pieces.flatten <+: log.bytes.drop r.offset)
    (none_left : pieces = [] → log.bytes.length ≤ r.offset) (finished : r.finished = true)
    (complete : r.pending = []) (counted : r.offset ≠ 0 ∨ log.bytes.length ≤ r.offset) :
    (startingAt r.offset).showing pieces = "" ↔ AtSeam log r := by
  cases pieces with
  | nil =>
    have hnothing : log.bytes.drop r.offset = [] := List.drop_of_length_le (none_left rfl)
    refine iff_of_true ?_ ⟨complete, fun _ b hb => ?_⟩
    · change lossy [] = ""
      rw [lossy, Utf8.decodeLossy]
    · rw [hnothing] at hb
      cases hb
  | cons piece later =>
    obtain ⟨b, raw, rfl⟩ := List.exists_cons_of_ne_nil (full piece List.mem_cons_self)
    have hhead := head?_of_pieces arrived
    have hoffset : r.offset ≠ 0 := by
      rcases counted with hcounted | hall
      · exact hcounted
      · rw [List.drop_of_length_le hall] at hhead
        cases hhead
    constructor
    · intro hnone
      refine ⟨complete, fun _ c hc => ?_⟩
      rw [hhead] at hc
      obtain rfl := Option.some.inj hc
      refine Decidable.byContradiction fun hne => ?_
      -- any other byte shows, since behind offset 0 no start marker is taken off
      exact showing_ne_empty (r := startingAt r.offset) rfl hoffset hne hnone
    · intro seam
      obtain rfl := seam.closed finished b hhead
      have hunframed := unframed_of_offset (r := startingAt r.offset) hoffset (endMarker :: raw)
      have habsorb := absorb_of_end hunframed List.not_mem_nil
        (show [] ++ [] = encodeChars [] from rfl)
      rw [showing, habsorb]
      rfl

theorem Stands.offset_ne_zero {shown rest : List Char} (stands : Stands log r shown rest)
    (hpending : r.pending ≠ []) : r.offset ≠ 0 := by
  intro hoffset
  -- at offset 0 all bytes are still to come, and what is held back would be there twice
  have hheld := congrArg List.length stands.held
  have htext := congrArg List.length (congrArg encodeChars stands.text)
  rw [hoffset, FramedLog.behind, Nat.zero_sub, List.drop_zero, List.length_append,
    Utf8.encode_eq, htext, Utf8.encodeChars_append, List.length_append] at hheld
  have hpos := List.length_pos_iff.2 hpending
  omega

/-- Between two characters, the next reader shows the rest. -/
theorem Stands.resumed {shown rest : List Char} (stands : Stands log r shown rest)
    (complete : r.pending = []) (serves : Serves source log.bytes ready patience)
    (hready : ready t) : ShowsAll source (startingAt r.offset) t (String.ofList rest) := by
  have hstands : Stands log (startingAt r.offset) shown rest :=
    ⟨rfl, stands.within, stands.text, by rw [← stands.held, complete]; rfl⟩
  obtain ⟨_, texts, _, _, hreads, htexts, -⟩ :=
    exists_readsAll serves (startingAt r.offset) t hstands hready
  rw [← htexts]
  exact hreads.showsAll

/-- Inside a character, it starts with a replacement. -/
theorem Stands.resumed_inside {shown rest : List Char} (stands : Stands log r shown rest)
    (held : incompleteTail r.pending = r.pending) (hpending : r.pending ≠ [])
    (serves : Serves source log.bytes ready patience) (hready : ready t) :
    ∃ more, ShowsAll source (startingAt r.offset) t ("\uFFFD" ++ more) := by
  obtain ⟨c, behind, hbehind, hc⟩ := Utf8.continuation_of_held hpending held stands.held
  have hoffset := stands.offset_ne_zero hpending
  have hbytes : log.bytes.drop r.offset = c :: (behind ++ log.closing) := by
    rw [drop_bytes hoffset stands.within, hbehind, List.cons_append]
  obtain ⟨pieces, hreceives, hfull, harrived, hnone⟩ :=
    serves.exists_receives (startingAt r.offset) t rfl hready
  change pieces.flatten <+: log.bytes.drop r.offset at harrived
  cases pieces with
  | nil =>
    have hnothing : log.bytes.drop r.offset = [] := List.drop_of_length_le (hnone rfl)
    rw [hbytes] at hnothing
    cases hnothing
  | cons piece later =>
    obtain ⟨b, raw, rfl⟩ := List.exists_cons_of_ne_nil (hfull piece List.mem_cons_self)
    have hhead := head?_of_pieces harrived
    rw [hbytes] at hhead
    obtain rfl : c = b := Option.some.inj hhead
    have hshowing : ∃ more, (startingAt r.offset).showing ((c :: raw) :: later) = "\uFFFD" ++ more :=
      showing_continuation hoffset rfl hc
    obtain ⟨more, hmore⟩ := hshowing
    refine ⟨more, ?_⟩
    rw [← hmore]
    exact hreceives.showsAll

/-- Behind the end, it shows what stands there. -/
theorem resumed_behind (finished : r.finished = true) (complete : r.pending = [])
    (counted : r.offset ≠ 0 ∨ log.bytes.length ≤ r.offset)
    (serves : Serves source log.bytes ready patience) (hready : ready t) :
    ∃ rest, ShowsAll source (startingAt r.offset) t rest ∧ (rest = "" ↔ AtSeam log r) := by
  obtain ⟨pieces, hreceives, hfull, harrived, hnone⟩ :=
    serves.exists_receives (startingAt r.offset) t rfl hready
  exact ⟨_, hreceives.showsAll, showing_behind hfull harrived hnone finished complete counted⟩

/-- **What the next reader shows**, from wherever the first one was abandoned. -/
theorem Reached.resumed {ready₁ : σ → Prop} {s : σ} {shown : List Char}
    (reached : Reached log ready₁ r s shown) (serves : Serves source log.bytes ready patience)
    (hready : ready t) :
    ∃ rest, ShowsAll source (startingAt r.offset) t rest ∧
      (AtSeam log r → String.ofList shown ++ rest = log.text) ∧
      (r.pending ≠ [] → ∃ more, rest = "\uFFFD" ++ more) ∧
      (r.pending = [] → String.ofList shown ++ rest = log.text → AtSeam log r) := by
  cases reached with
  | @within rest stands _ held =>
    by_cases hpending : r.pending = []
    · refine ⟨_, stands.resumed hpending serves hready, fun _ => ?_, fun h => absurd hpending h,
        fun _ _ => ⟨hpending, fun hfinished => ?_⟩⟩
      · rw [← String.ofList_append, ← stands.text, String.ofList_toList]
      · exact absurd (stands.unfinished.symm.trans hfinished) Bool.false_ne_true
    · obtain ⟨more, hshows⟩ := stands.resumed_inside held hpending serves hready
      exact ⟨_, hshows, fun seam => absurd seam.complete hpending, fun _ => ⟨more, rfl⟩,
        fun h => absurd h hpending⟩
  | ended finished complete all counted =>
    obtain ⟨rest, hshows, hrest⟩ := resumed_behind finished complete counted serves hready
    refine ⟨rest, hshows, fun seam => ?_, fun h => absurd complete h, fun _ hjoined => ?_⟩
    · rw [hrest.2 seam, ← all, String.ofList_toList, String.append_empty]
    · rw [← all, String.ofList_toList] at hjoined
      exact hrest.1 (String.append_eq_left_iff.1 hjoined)

end Resumed

theorem Serves.whole {source : Source τ} {ready : τ → Prop} {patience : τ → Nat} {t : τ}
    (serves : Serves source log.bytes ready patience) (hready : ready t) :
    ShowsAll source start t log.text := by
  obtain ⟨_, texts, _, _, hreads, htexts, -⟩ :=
    exists_readsAll serves start t (stands_start log) hready
  rw [← String.ofList_toList (s := log.text), ← htexts]
  exact hreads.showsAll

/-- **Two readers show what one shows exactly if the first one stops at a seam.**  If it
    does not, then either it holds something back, and the other one starts with a
    replacement, or the log is over, and the other one shows what stands behind it. -/
theorem readAll_resumed {source : Source σ} {source' : Source τ} {ready : σ → Prop}
    {ready' : τ → Prop} {patience : σ → Nat} {patience' : τ → Nat}
    (serves : Serves source log.bytes ready patience)
    (serves' : Serves source' log.bytes ready' patience') {s s' : σ} {t : τ} (hready : ready s)
    (hready' : ready' t) {fuel calls : Nat} {chunks : List (String × LogReader)} {r : LogReader}
    (h : readSome source fuel calls start s = (some (.ok chunks), r, s')) :
    ShowsAll source' start t log.text ∧
    ∃ rest, ShowsAll source' (startingAt r.offset) t rest ∧
      (AtSeam log r → String.join (chunks.map Prod.fst) ++ rest = log.text) ∧
      (r.pending ≠ [] → ∃ more, rest = "\uFFFD" ++ more) ∧
      ('\uFFFD' ∉ log.text.toList → String.join (chunks.map Prod.fst) ++ rest = log.text →
        AtSeam log r) := by
  have hstart : Reached log ready start s [] :=
    .within (stands_start log) hready (by rw [show start.pending = [] from rfl, incompleteTail])
  obtain ⟨shown, hshown, hreached⟩ := hstart.readSome serves h
  rw [List.nil_append] at hreached
  obtain ⟨rest, hrest, hseam, hbroken, hback⟩ := hreached.resumed serves' hready'
  refine ⟨serves'.whole hready', rest, hrest, ?_, hbroken, fun hno hjoined => ?_⟩
  · rwa [hshown]
  · rw [hshown] at hjoined
    by_cases hpending : r.pending = []
    · exact hback hpending hjoined
    · -- the replacement that the second reader starts with is not in the text
      obtain ⟨more, rfl⟩ := hbroken hpending
      refine absurd ?_ hno
      rw [← hjoined, String.toList_append, String.toList_append]
      exact List.mem_append_right _ (List.mem_append_left _ (by decide +kernel))

/-! ## 4. A log that is cut -/

/-- Abandoned between two characters, the first reader has nothing that the second lacks. -/
theorem readAll_resumed_between :
    ∃ fuel r s', readSome (scheduled [0x02, 0x61, 0xC3, 0xA9, 0x03]) fuel 1 start ([2], false) =
        (some (.ok [("a", r)]), r, s') ∧
      ShowsAll (scheduled [0x02, 0x61, 0xC3, 0xA9, 0x03]) (startingAt r.offset) ([1], false) "é" := by
  let log : FramedLog :=
    { opened := true, text := "aé", closed := some [],
      no_end := by decide +kernel, no_start := by decide +kernel }
  have hbytes : log.bytes = [0x02, 0x61, 0xC3, 0xA9, 0x03] := by decide +kernel
  have hreader : (start.absorb [0x02, 0x61]).2 = ⟨2, firstBackoff, false, []⟩ := by decide +kernel
  have hreads : Reads (scheduled [0x02, 0x61, 0xC3, 0xA9, 0x03]) start ([2], false) [0x02, 0x61]
      (.ok (some "a")) ⟨2, firstBackoff, false, []⟩ ([], false) := by
    rw [← hreader]
    exact .shown rfl rfl (by decide +kernel)
  obtain ⟨fuel, hfirst⟩ := hreads.readSome_one
  have serves : Serves (scheduled [0x02, 0x61, 0xC3, 0xA9, 0x03]) log.bytes (fun _ => True)
      (fun s => s.1.length) := by
    rw [hbytes]
    exact serves_scheduled _
  obtain ⟨-, rest, hrest, hseam, -⟩ :=
    readAll_resumed serves serves (t := ([1], false)) trivial trivial hfirst
  have hjoined : "a" ++ rest = log.text := hseam ⟨rfl, fun h => absurd h Bool.false_ne_true⟩
  have htext : rest = "é" := (String.append_right_inj "a").1 (hjoined.trans (by decide +kernel))
  rw [htext] at hrest
  exact ⟨fuel, _, _, hfirst, hrest⟩

/-- **Abandoned inside a character, it has:** the byte that it holds back is counted, and
    the second reader never asks for it. -/
theorem readAll_resumed_inside :
    let log : FramedLog :=
      { opened := true, text := "café", closed := some [],
        no_end := by decide +kernel, no_start := by decide +kernel }
    Serves (scheduled log.bytes) log.bytes (fun _ => True) (fun s => s.1.length) ∧
    ShowsAll (scheduled log.bytes) start ([], false) log.text ∧
    ∃ fuel r s', readSome (scheduled log.bytes) fuel 1 start ([5], false) =
        (some (.ok [("caf", r)]), r, s') ∧
      ShowsAll (scheduled log.bytes) (startingAt r.offset) ([], false) "\uFFFD" ∧
      "caf" ++ "\uFFFD" ≠ log.text := by
  intro log
  have hwhole := (serves_scheduled log.bytes).whole (t := ([], false)) trivial
  have hbytes : log.bytes = [0x02, 0x63, 0x61, 0x66, 0xC3, 0xA9, 0x03] := by decide +kernel
  have hreader : (start.absorb [0x02, 0x63, 0x61, 0x66, 0xC3]).2 =
      ⟨5, firstBackoff, false, [0xC3]⟩ := by decide +kernel
  rw [hbytes] at hwhole ⊢
  have hreads : Reads (scheduled [0x02, 0x63, 0x61, 0x66, 0xC3, 0xA9, 0x03]) start ([5], false)
      [0x02, 0x63, 0x61, 0x66, 0xC3] (.ok (some "caf")) ⟨5, firstBackoff, false, [0xC3]⟩
      ([], false) := by
    rw [← hreader]
    exact .shown rfl rfl (by decide +kernel)
  obtain ⟨fuel, hfirst⟩ := hreads.readSome_one
  have hreceives : Receives (scheduled [0x02, 0x63, 0x61, 0x66, 0xC3, 0xA9, 0x03]) (startingAt 5)
      ([], false) [[0xA9, 0x03]] := .last rfl rfl (by decide +kernel)
  have hshowing : (startingAt 5).showing [[0xA9, 0x03]] = "\uFFFD" := by decide +kernel
  have hrest := hreceives.showsAll
  rw [hshowing] at hrest
  exact ⟨serves_scheduled _, hwhole, fuel, _, _, hfirst, hrest, by decide +kernel⟩

end LogReader
end TerraformCloud
