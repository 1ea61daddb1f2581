/-
  TerraformCloud/Proofs/Sending/Wakeups.lean
  ==========================================
  **Nobody who waits for a cancellation sleeps through it.**

  A waiter that parks has registered before it looked at the flag and found it down.  So
  whoever raises the flag does so after the waiter registered, and wakes everyone later
  still: once a cancellation is complete, nobody is parked who was not woken
  (`Step.consistent`).  From then on every waiter is at most three steps of its own away
  from its end (`Reachable.exists_step`), and no step of anyone else moves it back
  (`Step.due_le`).
-/
import Mathlib.Data.List.Basic
import TerraformCloud.Cancellation

namespace TerraformCloud.Cancellation

/-! ## 1. Single steps -/

namespace Waiter

/-- Only the flag ends a wait. -/
theorem flag_of_step?_returned {flag : Bool} {w : Waiter} (h : w.step? flag = some returned) :
    flag = true := by
  cases w with
  | starting => cases h
  | registered woken =>
    cases flag with
    | true => rfl
    | false => cases h
  | parked woken => cases woken <;> cases h
  | returned => cases h

/-- Who parks without having been woken has seen the flag down. -/
theorem flag_of_step?_parked {flag : Bool} {w : Waiter} (h : w.step? flag = some (parked false)) :
    flag = false := by
  cases w with
  | starting => cases h
  | registered woken =>
    cases flag with
    | true => cases h
    | false => rfl
  | parked woken => cases woken <;> cases h
  | returned => cases h

theorem wake_ne_parked (w : Waiter) : w.wake ≠ parked false := by
  cases w <;> simp [wake]

end Waiter

theorem Canceller.began_iff {c : Canceller} : c ≠ .idle ↔ c = .flagged ∨ c = .finished := by
  cases c <;> simp

/-! ## 2. What holds at all times -/

namespace Token

/-- What the flag says about those who cancel and those who wait. -/
structure Consistent (t : Token) : Prop where
  raised : t.flag = true ↔ ∃ c ∈ t.cancellers, c ≠ .idle
  told : .returned ∈ t.waiters → t.flag = true
  awake : .finished ∈ t.cancellers → .parked false ∉ t.waiters

theorem consistent_fresh (waiters cancellers : Nat) : (fresh waiters cancellers).Consistent where
  raised := by simp [fresh]
  told h := by cases List.eq_of_mem_replicate h
  awake h := by cases List.eq_of_mem_replicate h

/-- A canceller that goes on is idle no more, and the others stay as they are. -/
theorem exists_not_idle_set {cs : List Canceller} {i : Nat} {c c' : Canceller} (hi : cs[i]? = some c)
    (hc' : c' ≠ .idle) : ∃ c ∈ cs.set i c', c ≠ .idle := by
  obtain ⟨hlt, -⟩ := List.getElem?_eq_some_iff.1 hi
  exact ⟨c', List.mem_set hlt c', hc'⟩

variable {t t' : Token}

/-- **Every step keeps this up.** -/
theorem Step.consistent (h : Step t t') (ht : t.Consistent) : t'.Consistent := by
  cases h with
  | waiter i w w' at_i step =>
    refine ⟨ht.raised, ?_, ?_⟩
    · intro hmem
      rcases List.mem_or_eq_of_mem_set hmem with hold | hnew
      · exact ht.told hold
      · rw [← hnew] at step
        exact Waiter.flag_of_step?_returned step
    · intro hfinished hmem
      rcases List.mem_or_eq_of_mem_set hmem with hold | hnew
      · exact ht.awake hfinished hold
      · -- it saw the flag down, but a cancellation is complete
        rw [← hnew] at step
        have hdown := Waiter.flag_of_step?_parked step
        have hup := ht.raised.2 ⟨_, hfinished, nofun⟩
        rw [hdown] at hup
        cases hup
  | raise i at_i =>
    refine ⟨iff_of_true rfl (exists_not_idle_set at_i nofun), fun _ => rfl, ?_⟩
    intro hfinished
    rcases List.mem_or_eq_of_mem_set hfinished with hold | hnew
    · exact ht.awake hold
    · cases hnew
  | wake i at_i =>
    have hup : t.flag = true := ht.raised.2 ⟨_, List.mem_of_getElem? at_i, nofun⟩
    refine ⟨iff_of_true hup (exists_not_idle_set at_i nofun), fun _ => hup, ?_⟩
    intro _ hmem
    obtain ⟨w, -, hw⟩ := List.mem_map.1 hmem
    exact w.wake_ne_parked hw

theorem Reachable.consistent {waiters cancellers : Nat} (h : Reachable waiters cancellers t) :
    t.Consistent := by
  induction h with
  | start => exact consistent_fresh waiters cancellers
  | step _ next ih => exact next.consistent ih

end Token

/-! ## 3. The way to the end -/

namespace Waiter

/-- How many steps of its own a waiter still takes once the flag is up and it is awake. -/
def due : Waiter → Nat
  | returned => 0
  | registered _ => 1
  | starting => 2
  | parked _ => 3

@[simp] theorem due_wake (w : Waiter) : w.wake.due = w.due := by
  cases w <;> rfl

theorem due_of_step? {w w' : Waiter} (h : w.step? true = some w') : w'.due + 1 = w.due := by
  cases w with
  | starting => cases h; rfl
  | registered woken => cases h; rfl
  | parked woken =>
    cases woken with
    | true => cases h; rfl
    | false => cases h
  | returned => cases h

theorem due_le (w : Waiter) : w.due ≤ 3 := by
  cases w <;> simp [due]

/-- Who is neither done nor asleep can go on. -/
theorem exists_step? {flag : Bool} {w : Waiter} (hdone : w ≠ returned) (hasleep : w ≠ parked false) :
    ∃ w', w.step? flag = some w' := by
  cases w with
  | starting => exact ⟨_, rfl⟩
  | registered woken => exact ⟨_, rfl⟩
  | parked woken =>
    cases woken with
    | true => exact ⟨_, rfl⟩
    | false => exact absurd rfl hasleep
  | returned => exact absurd rfl hdone

end Waiter

namespace Token

variable {t t' : Token}

/-- **Once the flag is up nobody is moved back**, and the one who takes a step gets nearer
    to the end. -/
theorem Step.due_le (h : Step t t') (hup : t.flag = true) {i : Nat} {w : Waiter}
    (hw : t.waiters[i]? = some w) :
    ∃ w', t'.waiters[i]? = some w' ∧ (w'.due = w.due ∨ w'.due + 1 = w.due) := by
  cases h with
  | waiter j v v' at_j step =>
    rw [hup] at step
    by_cases hij : j = i
    · subst hij
      obtain rfl : v = w := Option.some.inj (at_j.symm.trans hw)
      obtain ⟨hlt, -⟩ := List.getElem?_eq_some_iff.1 hw
      exact ⟨v', List.getElem?_set_self hlt, .inr (Waiter.due_of_step? step)⟩
    · exact ⟨w, (List.getElem?_set_ne hij).trans hw, .inl rfl⟩
  | raise j at_j => exact ⟨w, hw, .inl rfl⟩
  | wake j at_j =>
    refine ⟨w.wake, ?_, .inl w.due_wake⟩
    rw [List.getElem?_map, hw, Option.map_some]

/-- **Everyone returns soon.**  Once a cancellation is complete, everyone who has not
    returned can go on, and is at most three steps of its own away from that. -/
theorem Reachable.exists_step {waiters cancellers : Nat} (h : Reachable waiters cancellers t)
    (hfinished : .finished ∈ t.cancellers) {w : Waiter} (hw : w ∈ t.waiters) (hdone : w ≠ .returned) :
    ∃ w', w.step? t.flag = some w' ∧ w'.due + 1 = w.due ∧ w.due ≤ 3 := by
  have ht := h.consistent
  have hup : t.flag = true := ht.raised.2 ⟨_, hfinished, nofun⟩
  obtain ⟨w', hstep⟩ : ∃ w', w.step? t.flag = some w' :=
    Waiter.exists_step? hdone (fun hparked => ht.awake hfinished (hparked ▸ hw))
  exact ⟨w', hstep, Waiter.due_of_step? (hup ▸ hstep), w.due_le⟩

/-! ## 4. Wake-ups -/

/-- **No wake-up is lost.**  Whoever is there and however their steps mix: once a
    cancellation is complete, nobody is parked who was not woken; and nobody returns before
    a cancellation has set the flag. -/
theorem wakes_everyone {waiters cancellers : Nat} (h : Reachable waiters cancellers t) :
    ¬ (.finished ∈ t.cancellers ∧ .parked false ∈ t.waiters) ∧
    (.returned ∈ t.waiters → t.flag = true ∧ ∃ c ∈ t.cancellers, c = .flagged ∨ c = .finished) := by
  have ht := h.consistent
  constructor
  · rintro ⟨hfinished, hparked⟩
    exact ht.awake hfinished hparked
  · intro hreturned
    have hup := ht.told hreturned
    obtain ⟨c, hmem, hc⟩ := ht.raised.1 hup
    exact ⟨hup, c, hmem, Canceller.began_iff.1 hc⟩

/-- Two wait.  One parks and is woken, the other looks at the flag between the two steps
    of the cancellation. -/
theorem wakes_parked_and_late :
    let t : Token := ⟨true, [.parked true, .returned], [.finished]⟩
    Reachable 2 1 t ∧ ¬ (.finished ∈ t.cancellers ∧ .parked false ∈ t.waiters) ∧
      t.flag = true ∧ ∃ c ∈ t.cancellers, c = .flagged ∨ c = .finished := by
  intro t
  have hparked : Reachable 2 1 ⟨false, [.parked false, .starting], [.idle]⟩ :=
    (Reachable.start.step (.waiter _ 0 .starting (.registered false) rfl rfl)).step
      (.waiter _ 0 (.registered false) (.parked false) rfl rfl)
  have hraised : Reachable 2 1 ⟨true, [.parked false, .starting], [.flagged]⟩ :=
    hparked.step (.raise _ 0 rfl)
  have hlate : Reachable 2 1 ⟨true, [.parked false, .returned], [.flagged]⟩ :=
    (hraised.step (.waiter _ 1 .starting (.registered false) rfl rfl)).step
      (.waiter _ 1 (.registered false) .returned rfl rfl)
  have h : Reachable 2 1 t := hlate.step (.wake _ 0 rfl)
  obtain ⟨hawake, hflag⟩ := wakes_everyone h
  exact ⟨h, hawake, hflag (by decide)⟩

end Token
end TerraformCloud.Cancellation
