/-
  TerraformCloud/Proofs/Log/HeldBack.lean
  =======================================
  **What a reader of a log holds back, and what it shows.**

  A reader may be sent any bytes, cut anywhere.  It holds back at most three of them, which
  are the start of a character (`Tidy`), and nothing once it has reached the end.  Every round
  of its source keeps this, and a chunk that a round brings is not empty and has no trace of
  the byte that ends a log (`tidy_replay`).
-/
import Mathlib.Data.List.TakeWhile
import TerraformCloud.Proofs.Log.Persistent
import TerraformCloud.Proofs.Text.Lossy

namespace TerraformCloud.LogReader

variable {σ : Type}

/-! ## 1. Chunks -/

/-- The character of the byte behind a log. -/
def endCharacter : Char := '\x03'

/-- A chunk that is worth showing. -/
structure Clean (chunk : String) : Prop where
  nonempty : chunk ≠ ""
  unmarked : endCharacter ∉ chunk.toList

theorem ne_empty_of_nonempty {t chunk : String} (h : nonempty t = some chunk) : chunk ≠ "" := by
  rintro rfl
  obtain rfl := ReadsAll.nonempty_eq_some h
  cases h

/-- The text of bytes without the end marker, unless it is empty. -/
theorem clean_of_shown {bytes : Bytes} {chunk : String} (unmarked : endMarker ∉ bytes)
    (h : chunk ∈ (nonempty (lossy bytes)).toList) : Clean chunk := by
  rw [Option.mem_toList] at h
  refine ⟨ne_empty_of_nonempty h, ?_⟩
  rw [ReadsAll.nonempty_eq_some h, lossy, String.toList_ofList]
  intro hmem
  rcases Utf8.mem_decodeLossy hmem with hreplaced | hsent
  · exact absurd hreplaced (by decide)
  · exact unmarked (hsent.subset (by decide))

/-! ## 2. Rounds -/

/-- What a reader holds back. -/
structure Tidy (r : LogReader) : Prop where
  /-- Nothing, or the start of a character. -/
  held : r.pending = [] ∨ Utf8.Started r.pending
  ended : r.finished = true → r.pending = []
  unmarked : endMarker ∉ r.pending

section Rounds

variable {r : LogReader}

theorem tidy_startingAt (offset : Nat) : Tidy (startingAt offset) where
  held := .inl rfl
  ended _ := rfl
  unmarked := List.not_mem_nil

/-- What a piece adds to what is held back is the log up to its end. -/
theorem unmarked_text (h : Tidy r) (raw : Bytes) :
    endMarker ∉ r.pending ++ (r.unframed raw).takeWhile (fun b => b ≠ endMarker) := by
  intro hmem
  rcases List.mem_append.1 hmem with hheld | htext
  · exact h.unmarked hheld
  · simpa using List.mem_takeWhile_imp htext

theorem tidy_absorb (h : Tidy r) (unfinished : r.finished = false) (raw : Bytes) :
    Tidy (r.absorb raw).2 := by
  have hunmarked := unmarked_text h raw
  rw [absorb]
  dsimp only
  split
  · exact ⟨.inl rfl, fun _ => rfl, List.not_mem_nil⟩
  · constructor
    · exact Utf8.incompleteTail_started _
    · intro finished
      exact absurd (unfinished.symm.trans finished) Bool.false_ne_true
    · intro hmem
      obtain ⟨hsplit, -⟩ := Utf8.completePart_spec
        (r.pending ++ (r.unframed raw).takeWhile (fun b => b ≠ endMarker))
      rw [← hsplit] at hunmarked
      exact hunmarked (List.mem_append_right _ hmem)

theorem clean_absorb (h : Tidy r) (raw : Bytes) :
    ∀ chunk ∈ (nonempty (r.absorb raw).1).toList, Clean chunk := by
  have hunmarked := unmarked_text h raw
  rw [absorb]
  dsimp only
  split
  · intro chunk
    exact clean_of_shown hunmarked
  · intro chunk
    exact clean_of_shown fun hmem => hunmarked (List.mem_of_mem_take hmem)

theorem tidy_apply (h : Tidy r) (unfinished : r.finished = false) (round : Round) :
    Tidy (round.apply r).2 ∧ ∀ chunk ∈ (round.apply r).1, Clean chunk := by
  cases round with
  | piece b raw => exact ⟨tidy_absorb h unfinished _, clean_absorb h _⟩
  | failed e => exact ⟨h, by simp [Round.apply]⟩
  | unanswered e => exact ⟨h, by simp [Round.apply]⟩
  | complete =>
    refine ⟨⟨.inl rfl, fun _ => rfl, List.not_mem_nil⟩, ?_⟩
    intro chunk
    exact clean_of_shown h.unmarked
  | waited interrupted => exact ⟨⟨h.held, h.ended, h.unmarked⟩, by simp [Round.apply]⟩

theorem tidy_replay (h : Tidy r) (rounds : List Round) :
    Tidy (replay r rounds).2 ∧ ∀ chunk ∈ (replay r rounds).1, Clean chunk := by
  induction rounds generalizing r with
  | nil => exact ⟨h, by simp [replay]⟩
  | cons round rounds ih =>
    cases hfinished : r.finished with
    | true =>
      rw [replay_of_finished hfinished]
      exact ⟨h, by simp⟩
    | false =>
      obtain ⟨hafter, hchunk⟩ := tidy_apply h hfinished round
      obtain ⟨hend, hchunks⟩ := ih hafter
      rw [replay_cons hfinished]
      refine ⟨hend, ?_⟩
      intro chunk hmem
      exact (List.mem_append.1 hmem).elim (hchunk chunk) (hchunks chunk)

end Rounds

/-! ## 3. Calls -/

section Calls

variable {source : Source σ} {r r' : LogReader} {s s' : σ}

theorem tidy_next {fuel : Nat} {out : Option (Except ApiError (Option String))} (h : Tidy r)
    (call : next source fuel r s = (out, r', s')) :
    Tidy r' ∧ ∀ chunk, out = some (.ok (some chunk)) → Clean chunk := by
  obtain ⟨rounds, passes, -⟩ := next_passes call
  have hreplay := tidy_replay h rounds
  rw [passes.replays] at hreplay
  obtain ⟨hafter, hchunks⟩ := hreplay
  refine ⟨hafter, ?_⟩
  rintro chunk rfl
  exact hchunks chunk (List.mem_singleton_self chunk)

theorem tidy_calling {calls : List Nat} {outs : List (Option (Except ApiError (Option String)))}
    (h : Tidy r) (run : calling source calls r s = (outs, r', s')) :
    Tidy r' ∧ ∀ chunk, some (.ok (some chunk)) ∈ outs → Clean chunk := by
  induction calls generalizing r s outs with
  | nil =>
    cases run
    exact ⟨h, by simp⟩
  | cons fuel calls ih =>
    rcases hfirst : next source fuel r s with ⟨out, r₁, s₁⟩
    rcases hrest : calling source calls r₁ s₁ with ⟨later, r₂, s₂⟩
    simp only [calling, hfirst, hrest] at run
    cases run
    obtain ⟨hafter, hchunk⟩ := tidy_next h hfirst
    obtain ⟨hend, hchunks⟩ := ih hafter hrest
    refine ⟨hend, ?_⟩
    intro chunk hmem
    rcases List.mem_cons.1 hmem with heq | hlater
    · exact hchunk chunk heq.symm
    · exact hchunks chunk hlater

end Calls

/-- **At most three bytes are held back, and more bytes can always complete them.**  Whatever
    bytes arrive and wherever a call breaks off, what is held back is the start of a character,
    nothing is held back behind the end of a log, and each chunk that was given out is a text
    without the end marker. -/
theorem holds_back_little (source : Source σ) (offset : Nat) (calls : List Nat) (s : σ) :
    ∃ outs r s', calling source calls (startingAt offset) s = (outs, r, s') ∧ Tidy r ∧
      ∀ chunk, some (.ok (some chunk)) ∈ outs → Clean chunk := by
  rcases hrun : calling source calls (startingAt offset) s with ⟨outs, r, s'⟩
  exact ⟨outs, r, s', rfl, tidy_calling (tidy_startingAt offset) hrun⟩

end TerraformCloud.LogReader
