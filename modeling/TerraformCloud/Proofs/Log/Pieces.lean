/-
  TerraformCloud/Proofs/Log/Pieces.lean
  =====================================
  **What a reader shows of arbitrary bytes, piece by piece.**

  Polling and decoding are told apart here.  `Receives` says which pieces a reader gets
  from a source up to the end of the log, and `showing` is what it makes of them, a
  function of the pieces alone (`Receives.showsAll`).

  On bytes without markers that function is `Utf8.decodePieces`, whatever the bytes are
  (`showing_plain`).  So the text is the lossy decoding of the whole log exactly if no
  byte is torn off the character that it belongs to, and a piece that ends inside a
  character behind an ill-formed part does tear it.
-/
import TerraformCloud.Proofs.Log.Reading
import TerraformCloud.Proofs.Text.Lossy

namespace TerraformCloud.LogReader

open Utf8 (completePart decodePieces incompleteTail tornOff)

variable {σ : Type}

/-! ## 1. From pieces to text -/

/-- What a reader shows of pieces and of the end of the log behind them. -/
def showing (r : LogReader) : List Bytes → String
  | [] => r.finish.1
  | piece :: later =>
    (r.absorb piece).1 ++
      if (r.absorb piece).2.finished then "" else showing (r.absorb piece).2 later

theorem showing_idle (r : LogReader) (pieces : List Bytes) :
    r.idle.2.showing pieces = r.showing pieces := by
  cases pieces with
  | nil => rfl
  | cons piece later =>
    have habsorb : r.idle.2.absorb piece = r.absorb piece := rfl
    rw [showing, showing, habsorb]

/-- The nonempty pieces that a reader gets, up to the end of the log. -/
inductive Receives (source : Source σ) : LogReader → σ → List Bytes → Prop where
  | ended {r : LogReader} {s s₁ s₂ : σ} (unfinished : r.finished = false)
      (poll : source.poll r.offset s = (.ok [], s₁)) (done : source.done s₁ = (.ok true, s₂)) :
      Receives source r s []
  | idle {r : LogReader} {s s₁ s₂ s₃ : σ} {pieces : List Bytes} (unfinished : r.finished = false)
      (poll : source.poll r.offset s = (.ok [], s₁)) (done : source.done s₁ = (.ok false, s₂))
      (wait : source.wait r.idle.1 s₂ = (false, s₃))
      (later : Receives source r.idle.2 s₃ pieces) : Receives source r s pieces
  /-- The end marker arrives. -/
  | last {r : LogReader} {s s₁ : σ} {b : UInt8} {raw : Bytes} (unfinished : r.finished = false)
      (poll : source.poll r.offset s = (.ok (b :: raw), s₁))
      (ended : (r.absorb (b :: raw)).2.finished = true) : Receives source r s [b :: raw]
  | piece {r : LogReader} {s s₁ : σ} {b : UInt8} {raw : Bytes} {pieces : List Bytes}
      (unfinished : r.finished = false) (poll : source.poll r.offset s = (.ok (b :: raw), s₁))
      (later : Receives source (r.absorb (b :: raw)).2 s₁ pieces) :
      Receives source r s ((b :: raw) :: pieces)

namespace Receives

variable {source : Source σ} {r : LogReader} {s : σ} {pieces : List Bytes}

theorem unfinished (h : Receives source r s pieces) : r.finished = false := by
  cases h <;> assumption

theorem exists_readsAll (h : Receives source r s pieces) :
    ∃ received texts r' s', ReadsAll source r s received texts r' s' ∧
      String.join texts = r.showing pieces := by
  induction h with
  | ended unfinished poll done =>
    obtain ⟨texts, hreads, htexts⟩ := ReadsAll.of_nothingLeft unfinished poll done
    exact ⟨_, texts, _, _, hreads, htexts⟩
  | @idle r s s₁ s₂ s₃ pieces unfinished poll done wait later ih =>
    obtain ⟨received, texts, r', s', hreads, htexts⟩ := ih
    refine ⟨received, texts, r', s', ReadsAll.of_idle unfinished poll done wait hreads, ?_⟩
    rw [htexts, showing_idle]
  | last unfinished poll ended =>
    obtain ⟨texts, hreads, htexts⟩ :=
      ReadsAll.of_piece unfinished poll (.stop (.ended ended))
    refine ⟨_, texts, _, _, hreads, ?_⟩
    rw [htexts, showing, if_pos ended, String.join_nil]
  | piece unfinished poll later ih =>
    obtain ⟨received, texts, r', s', hreads, htexts⟩ := ih
    obtain ⟨all, hall, hjoin⟩ := ReadsAll.of_piece unfinished poll hreads
    refine ⟨_, all, r', s', hall, ?_⟩
    rw [hjoin, htexts, showing, later.unfinished, if_neg Bool.false_ne_true]

/-- **A reader shows what it makes of its pieces.** -/
theorem showsAll (h : Receives source r s pieces) : ShowsAll source r s (r.showing pieces) := by
  obtain ⟨received, texts, r', s', hreads, htexts⟩ := h.exists_readsAll
  rw [← htexts]
  exact hreads.showsAll

end Receives

/-! ## 2. Bytes without markers -/

theorem takeWhile_of_no_end {body : Bytes} (h : endMarker ∉ body) (rest : Bytes) :
    (body ++ rest).takeWhile (fun b => b ≠ endMarker) =
      body ++ rest.takeWhile (fun b => b ≠ endMarker) := by
  refine List.takeWhile_append_of_pos fun b hb => ?_
  rw [decide_eq_true_iff]
  intro heq
  exact h (heq ▸ hb)

/-- A piece without an end marker shows what is complete and holds back the rest. -/
theorem absorb_of_not_mem {r : LogReader} {piece : Bytes} (hno : endMarker ∉ r.unframed piece) :
    r.absorb piece = (lossy (completePart (r.pending ++ r.unframed piece)),
      { r with
        offset := r.offset + piece.length, backoff := firstBackoff,
        pending := incompleteTail (r.pending ++ r.unframed piece) }) := by
  have htext : (r.unframed piece).takeWhile (fun b => b ≠ endMarker) = r.unframed piece := by
    simpa using takeWhile_of_no_end hno []
  unfold LogReader.absorb
  dsimp only
  rw [htext, if_neg (Nat.lt_irrefl _)]
  rfl

theorem showing_plain {r : LogReader} {pieces : List Bytes} (unfinished : r.finished = false)
    (no_start : startMarker ∉ pieces.flatten) (no_end : endMarker ∉ pieces.flatten) :
    r.showing pieces = String.ofList (decodePieces r.pending pieces) := by
  induction pieces generalizing r with
  | nil => rfl
  | cons piece later ih =>
    rw [List.flatten_cons, List.mem_append, not_or] at no_start no_end
    have hunframed : r.unframed piece = piece := by
      rw [unframed, if_neg]
      rintro ⟨-, hhead⟩
      exact no_start.1 (List.mem_of_mem_head? hhead)
    have hno : endMarker ∉ r.unframed piece := by
      rw [hunframed]
      exact no_end.1
    have hlater : (r.absorb piece).2.showing later =
        String.ofList (decodePieces (incompleteTail (r.pending ++ piece)) later) := by
      rw [absorb_of_not_mem hno, hunframed]
      exact ih unfinished no_start.2 no_end.2
    have hunfinished : (r.absorb piece).2.finished = false := by
      rw [absorb_of_not_mem hno]
      exact unfinished
    rw [showing, hlater, hunfinished, if_neg Bool.false_ne_true, absorb_of_not_mem hno, hunframed,
      decodePieces, String.ofList_append]
    rfl

/-! ## 3. A log that is cut anywhere -/

/-- A source whose polls bring the pieces that are left, one by one, and whose owner is
    done behind them. -/
structure Delivers (source : Source σ) (left : σ → List Bytes) : Prop where
  poll : ∀ offset s, (source.poll offset s).1 = .ok ((left s).headD []) ∧
    left (source.poll offset s).2 = (left s).tail
  done : ∀ s, left s = [] → (source.done s).1 = .ok true

section Delivers

variable {source : Source σ} {left : σ → List Bytes}

/-- As long as no end marker arrives, a reader gets all pieces. -/
theorem Delivers.receives (delivers : Delivers source left) {r : LogReader} {s : σ}
    {pieces : List Bytes} (hleft : left s = pieces) (full : ∀ piece ∈ pieces, piece ≠ [])
    (unfinished : r.finished = false) (no_end : endMarker ∉ pieces.flatten) :
    Receives source r s pieces := by
  obtain ⟨hpoll, hrest⟩ := delivers.poll r.offset s
  rw [hleft] at hpoll hrest
  induction pieces generalizing r s with
  | nil =>
    have hdone := delivers.done (source.poll r.offset s).2 hrest
    exact .ended unfinished (Prod.ext hpoll rfl) (Prod.ext hdone rfl)
  | cons piece later ih =>
    rw [List.flatten_cons, List.mem_append, not_or] at no_end
    obtain ⟨b, raw, rfl⟩ := List.exists_cons_of_ne_nil (full piece List.mem_cons_self)
    have hno : endMarker ∉ r.unframed (b :: raw) := by
      intro hmem
      apply no_end.1
      rw [unframed] at hmem
      split at hmem
      · exact List.mem_of_mem_drop hmem
      · exact hmem
    have hunfinished : (r.absorb (b :: raw)).2.finished = false := by
      rw [absorb_of_not_mem hno]
      exact unfinished
    obtain ⟨hpoll', hrest'⟩ := delivers.poll (r.absorb (b :: raw)).2.offset (source.poll r.offset s).2
    rw [hrest] at hpoll' hrest'
    refine .piece unfinished (Prod.ext hpoll rfl) ?_
    exact ih hrest (fun p hp => full p (List.mem_cons_of_mem _ hp)) hunfinished no_end.2 hpoll' hrest'

/-- **A log without markers reads as its lossy decoding exactly if nothing is torn off**,
    and every byte that is torn off shows as one character more. -/
theorem readAll_pieces (delivers : Delivers source left) (s : σ)
    (full : ∀ piece ∈ left s, piece ≠ []) (no_start : startMarker ∉ (left s).flatten)
    (no_end : endMarker ∉ (left s).flatten) :
    ∃ text, ShowsAll source start s text ∧
      text.length = (lossy (left s).flatten).length + tornOff [] (left s) ∧
      (text = lossy (left s).flatten ↔ tornOff [] (left s) = 0) := by
  have hreceives : Receives source start s (left s) := delivers.receives rfl full rfl no_end
  have hshowing : start.showing (left s) = String.ofList (decodePieces [] (left s)) :=
    showing_plain rfl no_start no_end
  have hlength := Utf8.length_decodePieces [] (left s)
  have hiff := Utf8.decodePieces_eq_iff [] (left s)
  rw [List.nil_append] at hlength hiff
  refine ⟨start.showing (left s), hreceives.showsAll, ?_, ?_⟩
  · rw [hshowing, lossy, String.length_ofList, String.length_ofList, hlength]
  · rw [hshowing, lossy, ← hiff, String.ofList_inj]

end Delivers

def delivering : Source (List Bytes) :=
  { poll := fun _ pieces => (.ok (pieces.headD []), pieces.tail)
    done := fun pieces => (.ok true, pieces)
    wait := fun _ pieces => (false, pieces) }

theorem delivers_delivering : Delivers delivering id where
  poll _ _ := ⟨rfl, rfl⟩
  done _ _ := rfl

/-- An ill-formed byte does no harm to a character that is cut in a later piece. -/
theorem readAll_cut_behind_broken :
    ShowsAll delivering start [[0x61, 0xFF], [0xC3], [0xA9]] "a\uFFFDé" := by
  obtain ⟨text, hshows, -, hiff⟩ :=
    readAll_pieces delivers_delivering [[0x61, 0xFF], [0xC3], [0xA9]] (by decide) (by decide)
      (by decide)
  have htext : text = "a\uFFFDé" := (hiff.2 (by decide +kernel)).trans (by decide +kernel)
  rwa [htext] at hshows

/-- **In the same piece it does:** the bytes of the character show as three ill-formed
    ones, and as one character when they arrive together. -/
theorem readAll_torn :
    let pieces : List Bytes := [[0xFF, 0xC3], [0xA9]]
    (∀ piece ∈ pieces, piece ≠ []) ∧ startMarker ∉ pieces.flatten ∧ endMarker ∉ pieces.flatten ∧
    lossy pieces.flatten = "\uFFFDé" ∧
    ShowsAll delivering start pieces "\uFFFD\uFFFD\uFFFD" := by
  intro pieces
  have full : ∀ piece ∈ pieces, piece ≠ [] := by decide
  have no_start : startMarker ∉ pieces.flatten := by decide
  have no_end : endMarker ∉ pieces.flatten := by decide
  have hreceives : Receives delivering start pieces pieces :=
    delivers_delivering.receives rfl full rfl no_end
  have htext : start.showing pieces = "\uFFFD\uFFFD\uFFFD" :=
    (showing_plain rfl no_start no_end).trans (by decide +kernel)
  have hshows := hreceives.showsAll
  rw [htext] at hshows
  exact ⟨full, no_start, no_end, by decide +kernel, hshows⟩

end TerraformCloud.LogReader
