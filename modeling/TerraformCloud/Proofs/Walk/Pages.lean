/-
  TerraformCloud/Proofs/Walk/Pages.lean
  =====================================
  **A walk over the pages of a list gives the list.**

  Whoever answers with the pages of one list (`Lists`), and says that another page
  follows exactly if items are left, is walked through from the first page to the last
  one: what was collected before a page is the front of the list up to it, and what was
  collected behind it is the front up to the next (`take_pages`).  A walk ends at the
  last page that is ever asked for, so a longer list is cut there (`collectAll_lists`).
-/
import TerraformCloud.Proofs.Simulator.Serving
import TerraformCloud.Walk

namespace TerraformCloud.Walk

open Simulator (pageItems pageCount lt_pageCount_iff)

/-! ## 1. Pages of a list -/

section Pages

variable {ι : Type} (items : List ι) {number size : Nat}

/-- The front of a list up to a page, and the page behind it. -/
theorem take_pages (hnumber : 1 ≤ number) :
    items.take ((number - 1) * size) ++ pageItems items number size = items.take (number * size) := by
  have hstep : number * size = (number - 1) * size + size := by
    rw [← Nat.succ_mul, Nat.succ_eq_add_one, Nat.sub_add_cancel hnumber]
  rw [pageItems, hstep, List.take_add]

/-- Behind the last page the front is the whole list. -/
theorem take_of_no_more (hsize : 0 < size) (h : ¬number < pageCount items.length size) :
    items.take (number * size) = items := by
  rw [lt_pageCount_iff hsize, Nat.not_lt] at h
  exact List.take_of_length_le h

end Pages

/-! ## 2. Walking -/

variable {σ ο ι π : Type} [Paginated ο] [PageInfo π]

/-- A page that a walk through a list of some length comes to. -/
structure Asks (total size number : Nat) : Prop where
  first : 1 ≤ number
  last : number ≤ lastPage
  there : number = 1 ∨ number ≤ pageCount total size

/-- As long as the world is as it should be, each page that a walk comes to is answered
    with its part of the list, and with the number of the next page if there is one. -/
def Lists (fetch : ο → σ → Result σ (Page ι π)) (options : ο) (items : List ι) (size : Nat)
    (world : σ → Prop) : Prop :=
  ∀ number s, Asks items.length size number → world s → ∃ page s',
    fetch (at_ options number) s = (.ok page, s') ∧ world s' ∧
    page.items = pageItems items number size ∧
    PageInfo.nextPage page.pagination =
      if number < pageCount items.length size then some (UInt32.ofNat (number + 1)) else none

section Following

variable {position : π} {number : Nat} {p : Prop} [Decidable p]
  (h : PageInfo.nextPage position = if p then some (UInt32.ofNat (number + 1)) else none)

include h

theorem following_of_more (hp : p) (hnumber : number < lastPage) :
    following number position = some ⟨number + 1, Nat.lt_succ_self _, hnumber⟩ := by
  have hnext : (UInt32.ofNat (number + 1)).toNat = number + 1 :=
    UInt32.toNat_ofNat_of_lt' (Nat.lt_of_le_of_lt hnumber (by decide))
  rw [if_pos hp] at h
  rw [following, h]
  dsimp only
  rw [dif_pos (by rw [hnext]; exact ⟨Nat.lt_succ_self _, hnumber⟩)]
  simp only [hnext]

theorem following_of_no_more (hp : ¬p) : following number position = none := by
  rw [if_neg hp] at h
  rw [following, h]

/-- Nothing follows the last page that is asked for, even if there is more. -/
theorem following_of_last (hnumber : number = lastPage) : following number position = none := by
  by_cases hp : p
  · rw [if_pos hp, hnumber] at h
    rw [following, h, hnumber]
    decide
  · exact following_of_no_more h hp

end Following

/-- **What a walk has collected is the front of the list up to where it stands.** -/
theorem collectFrom_lists {fetch : ο → σ → Result σ (Page ι π)} {options : ο} {items : List ι} {size : Nat}
    {world : σ → Prop} (h : Lists fetch options items size world) (hsize : 0 < size) {number : Nat}
    (hnumber : Asks items.length size number) {s : σ} (hs : world s) :
    ∃ s', collectFrom fetch options number (items.take ((number - 1) * size)) s =
      (.ok (items.take (lastPage * size)), s') ∧ world s' := by
  obtain ⟨page, s₁, hfetch, hs₁, hitems, hnext⟩ := h number s hnumber hs
  rw [collectFrom, hfetch]
  dsimp only
  rw [hitems, take_pages items hnumber.first]
  by_cases hlast : number = lastPage
  · rw [following_of_last hnext hlast]
    exact ⟨s₁, by rw [hlast], hs₁⟩
  by_cases hmore : number < pageCount items.length size
  · have hless : number < lastPage := Nat.lt_of_le_of_ne hnumber.last hlast
    rw [following_of_more hnext hmore hless]
    exact collectFrom_lists h hsize ⟨Nat.succ_pos _, hless, .inr hmore⟩ hs₁
  · -- no page follows, so the front is the list, as it is up to any page behind
    rw [following_of_no_more hnext hmore]
    have hbehind : ¬lastPage < pageCount items.length size :=
      fun hlt => hmore (Nat.lt_of_le_of_lt hnumber.last hlt)
    exact ⟨s₁, by rw [take_of_no_more items hsize hmore, take_of_no_more items hsize hbehind], hs₁⟩
termination_by lastPage - number

/-- **A walk gives the list**, cut behind the last page that is asked for. -/
theorem collectAll_lists {fetch : ο → σ → Result σ (Page ι π)} {options : ο} {items : List ι} {size : Nat}
    {world : σ → Prop} (h : Lists fetch options items size world) (hsize : 0 < size) {s : σ}
    (hs : world s) :
    ∃ s', collectAll fetch options s = (.ok (items.take (lastPage * size)), s') ∧ world s' := by
  obtain ⟨s', hcollect, hs'⟩ := collectFrom_lists h hsize ⟨Nat.le_refl 1, by decide, .inl rfl⟩ hs
  rw [Nat.sub_self, Nat.zero_mul, List.take_zero] at hcollect
  exact ⟨s', hcollect, hs'⟩

/-- **What holds of the items of every page holds of all that is collected**, whatever the
    pages say about each other. -/
theorem collectFrom_forall {fetch : ο → σ → Result σ (Page ι π)} {options : ο} {world : σ → Prop}
    {P : ι → Prop}
    (hfetch : ∀ number s, world s → world (fetch (at_ options number) s).2 ∧
      ∀ page, (fetch (at_ options number) s).1 = .ok page → ∀ i ∈ page.items, P i)
    (number : Nat) {collected : List ι} (hcollected : ∀ i ∈ collected, P i) {s : σ} (hs : world s) :
    world (collectFrom fetch options number collected s).2 ∧
      ∀ items, (collectFrom fetch options number collected s).1 = .ok items → ∀ i ∈ items, P i := by
  obtain ⟨hworld, hpage⟩ := hfetch number s hs
  rw [collectFrom]
  generalize fetch (at_ options number) s = result at hworld hpage
  obtain ⟨answer, s'⟩ := result
  cases answer with
  | error e => exact ⟨hworld, nofun⟩
  | ok page =>
    have hboth : ∀ i ∈ collected ++ page.items, P i :=
      List.forall_mem_append.2 ⟨hcollected, hpage page rfl⟩
    dsimp only
    split
    · refine ⟨hworld, ?_⟩
      rintro items ⟨⟩
      exact hboth
    · next next hforward _ => exact collectFrom_forall hfetch next hboth hworld
termination_by lastPage - number
decreasing_by omega

end TerraformCloud.Walk
