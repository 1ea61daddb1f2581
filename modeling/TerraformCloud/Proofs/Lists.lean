/-
  TerraformCloud/Proofs/Lists.lean
  ================================
  **Reading a list item by item.**

  A list is read if each of its items is, and then item by item in order
  (`mapM_eq_some_iff`).  So it is read alike when one of its items is replaced by one that
  is read alike (`Preserves.item`).
-/
import Mathlib.Data.List.Forall2
import Mathlib.Data.List.Perm.Basic

namespace TerraformCloud

variable {α β : Type}

theorem mapM_congr {m : Type → Type} [Monad m] [LawfulMonad m] {f g : α → m β} {l : List α}
    (h : ∀ a ∈ l, f a = g a) : l.mapM f = l.mapM g := by
  induction l with
  | nil => rfl
  | cons a l ih =>
    rw [List.mapM_cons, List.mapM_cons, h a List.mem_cons_self,
      ih fun b hb => h b (List.mem_cons_of_mem _ hb)]

theorem mapM_eq_some_iff {f : α → Option β} {l : List α} {r : List β} :
    l.mapM f = some r ↔ List.Forall₂ (fun a b => f a = some b) l r := by
  induction l generalizing r with
  | nil =>
    rw [List.mapM_nil, List.forall₂_nil_left_iff]
    exact ⟨fun h => (Option.some.inj h).symm, fun h => congrArg some h.symm⟩
  | cons a l ih =>
    rw [List.mapM_cons, List.forall₂_cons_left_iff]
    constructor
    · intro h
      obtain ⟨b, hb, h⟩ := Option.bind_eq_some_iff.1 h
      obtain ⟨bs, hbs, h⟩ := Option.bind_eq_some_iff.1 h
      cases h
      exact ⟨b, bs, hb, ih.1 hbs, rfl⟩
    · rintro ⟨b, bs, hb, hbs, rfl⟩
      rw [hb, ih.2 hbs]
      rfl

/-- What was read comes from an item. -/
theorem exists_mem_of_mapM {f : α → Option β} {l : List α} {r : List β} (h : l.mapM f = some r) {b : β}
    (hb : b ∈ r) : ∃ a ∈ l, f a = some b := by
  have hall := mapM_eq_some_iff.1 h
  clear h
  induction hall with
  | nil => cases hb
  | cons hfirst _ ih =>
    rcases List.mem_cons.1 hb with rfl | hb
    · exact ⟨_, List.mem_cons_self, hfirst⟩
    · obtain ⟨a, ha, hfa⟩ := ih hb
      exact ⟨a, List.mem_cons_of_mem _ ha, hfa⟩

theorem mapM_eq_some_map {f : α → Option β} {g : α → β} {l : List α}
    (h : ∀ a ∈ l, f a = some (g a)) : l.mapM f = some (l.map g) := by
  rw [mapM_congr h]
  exact List.mapM_pure

/-- Each of a list's members can be given a partner exactly if the whole list can. -/
theorem exists_forall₂_iff {β δ : Type} {R : β → δ → Prop} {bs : List β} :
    (∃ ds, List.Forall₂ R bs ds) ↔ ∀ b ∈ bs, ∃ d, R b d := by
  induction bs with
  | nil => simp
  | cons b bs ih =>
    simp only [List.forall₂_cons_left_iff, List.forall_mem_cons, ← ih]
    constructor
    · rintro ⟨_, d, ds, hd, hds, -⟩
      exact ⟨⟨d, hd⟩, ds, hds⟩
    · rintro ⟨⟨d, hd⟩, ds, hds⟩
      exact ⟨_, d, ds, hd, hds, rfl⟩

/-- A list can be read if each of its items can. -/
theorem exists_mapM_iff {f : α → Option β} {l : List α} :
    (∃ r, l.mapM f = some r) ↔ ∀ a ∈ l, ∃ b, f a = some b := by
  simp only [mapM_eq_some_iff, exists_forall₂_iff]

/-- Whatever is read of one thing is read of another one. -/
def Preserves (f : α → Option β) (a a' : α) : Prop := ∀ b, f a = some b → f a' = some b

/-- A list is read alike when one of its items is. -/
theorem Preserves.item {f : α → Option β} {a a' : α} (h : Preserves f a a') (before after : List α) :
    Preserves (List.mapM f) (before ++ a :: after) (before ++ a' :: after) := by
  intro r hr
  rw [mapM_eq_some_iff] at hr ⊢
  induction before generalizing r with
  | nil =>
    obtain ⟨b, bs, hb, hbs, rfl⟩ := List.forall₂_cons_left_iff.1 hr
    exact .cons (h b hb) hbs
  | cons x before ih =>
    obtain ⟨b, bs, hb, hbs, rfl⟩ := List.forall₂_cons_left_iff.1 hr
    exact .cons hb (ih bs hbs)

/-- A list is read alike in any order. -/
theorem mapM_perm {f : α → Option β} {l l' : List α} (h : l.Perm l') :
    Option.Rel List.Perm (l.mapM f) (l'.mapM f) := by
  have hdirect : ∀ {l l' : List α} {r' : List β}, l.Perm l' → l'.mapM f = some r' →
      ∃ r, l.mapM f = some r ∧ r.Perm r' := by
    intro l l' r' hperm hread
    obtain ⟨r, hr, hrr⟩ := List.perm_comp_forall₂ hperm (mapM_eq_some_iff.1 hread)
    exact ⟨r, mapM_eq_some_iff.2 hr, hrr⟩
  cases hread : l'.mapM f with
  | some r' =>
    obtain ⟨r, hr, hrr⟩ := hdirect h hread
    rw [hr]
    exact .some hrr
  | none =>
    cases hread' : l.mapM f with
    | none => exact .none
    | some r =>
      obtain ⟨r', hr', -⟩ := hdirect h.symm hread'
      rw [hr'] at hread
      cases hread

end TerraformCloud
