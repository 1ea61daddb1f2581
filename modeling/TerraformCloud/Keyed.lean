/-
  TerraformCloud/Keyed.lean
  =========================
  **Finite maps from text keys, kept in key order.**

  Query parameters, relationships, headers and the stored resources of a server are
  all looked up by a text key and all written out in key order.  A `Keyed` map is
  the list of its entries in strictly ascending order of key, so two maps with the
  same bindings are equal and the order of output is the order of the list.  Text is
  compared character by character, which is also the order of its UTF-8 bytes.
-/

namespace TerraformCloud

/-- A map from text keys: its entries in strictly ascending order of key. -/
structure Keyed (α : Type) where
  entries : List (String × α)
  ascending : entries.Pairwise (fun a b => a.1 < b.1)

namespace Keyed

variable {α β : Type}

@[ext] theorem ext {m n : Keyed α} (h : m.entries = n.entries) : m = n := by
  cases m; cases n; cases h; rfl

instance [DecidableEq α] : DecidableEq (Keyed α) := fun m n =>
  decidable_of_iff (m.entries = n.entries) ⟨ext, fun h => h ▸ rfl⟩

instance [Repr α] : Repr (Keyed α) := ⟨fun m n => reprPrec m.entries n⟩

def empty : Keyed α := ⟨[], .nil⟩

instance : Inhabited (Keyed α) := ⟨empty⟩

def isEmpty (m : Keyed α) : Bool := m.entries.isEmpty

def find? (m : Keyed α) (key : String) : Option α :=
  (m.entries.find? (fun e => e.1 = key)).map (·.2)

def keys (m : Keyed α) : List String := m.entries.map (·.1)

def values (m : Keyed α) : List α := m.entries.map (·.2)

/-! ### Storing -/

/-- Puts `f` of the value so far (if any) under `key`, at the key's place. -/
def alterEntries (key : String) (f : Option α → α) : List (String × α) → List (String × α)
  | [] => [(key, f none)]
  | (k, v) :: rest =>
    if key < k then (key, f none) :: (k, v) :: rest
    else if key = k then (key, f (some v)) :: rest
    else (k, v) :: alterEntries key f rest

/-- Altering adds no key but the one altered. -/
theorem mem_alterEntries {key : String} {f : Option α → α} {l : List (String × α)}
    {e : String × α} (h : e ∈ alterEntries key f l) : e.1 = key ∨ e ∈ l := by
  induction l with
  | nil => simp [alterEntries] at h; exact .inl (by rw [h])
  | cons p rest ih =>
    obtain ⟨k, v⟩ := p
    unfold alterEntries at h
    split at h
    · rcases List.mem_cons.1 h with h | h
      · exact .inl (by rw [h])
      · exact .inr h
    · split at h
      · rcases List.mem_cons.1 h with h | h
        · exact .inl (by rw [h])
        · exact .inr (List.mem_cons_of_mem _ h)
      · rcases List.mem_cons.1 h with h | h
        · exact .inr (h ▸ List.mem_cons_self)
        · exact (ih h).imp id (List.mem_cons_of_mem _)

theorem pairwise_alterEntries {key : String} {f : Option α → α} {l : List (String × α)}
    (h : l.Pairwise (fun a b => a.1 < b.1)) :
    (alterEntries key f l).Pairwise (fun a b => a.1 < b.1) := by
  induction l with
  | nil => simp [alterEntries]
  | cons p rest ih =>
    obtain ⟨k, v⟩ := p
    obtain ⟨hk, hrest⟩ := List.pairwise_cons.1 h
    unfold alterEntries
    split
    · rename_i hlt
      refine List.pairwise_cons.2 ⟨fun e he => ?_, h⟩
      rcases List.mem_cons.1 he with he | he
      · exact he ▸ hlt
      · exact String.lt_trans hlt (hk e he)
    · split
      · rename_i heq
        exact List.pairwise_cons.2 ⟨fun e he => heq ▸ hk e he, hrest⟩
      · rename_i hnot hne
        refine List.pairwise_cons.2 ⟨fun e he => ?_, ih hrest⟩
        rcases mem_alterEntries he with he | he
        · have hle : k ≤ key := String.not_lt.1 hnot
          rcases Decidable.em (k < key) with hlt | hge
          · exact he ▸ hlt
          · exact absurd (String.le_antisymm (String.not_lt.1 hge) hle) hne
        · exact hk e he

/-- Replaces what is stored under `key` by `f` of it. -/
def alter (m : Keyed α) (key : String) (f : Option α → α) : Keyed α :=
  ⟨alterEntries key f m.entries, pairwise_alterEntries m.ascending⟩

/-- Stores a value under a key, in place of the value it had. -/
def insert (m : Keyed α) (key : String) (value : α) : Keyed α := m.alter key (fun _ => value)

/-- Stores pairs one after the other, so the last of several with one key stays. -/
def ofList (pairs : List (String × α)) : Keyed α :=
  pairs.foldl (fun m e => m.insert e.1 e.2) empty

def filter (m : Keyed α) (p : String → α → Bool) : Keyed α :=
  ⟨m.entries.filter (fun e => p e.1 e.2), m.ascending.sublist List.filter_sublist⟩

def erase (m : Keyed α) (key : String) : Keyed α := m.filter (fun k _ => k ≠ key)

/-! ### Looking up what was stored -/

/-- Nothing is stored under a key that all keys are greater than. -/
theorem find?_of_lt {key : String} {l : List (String × α)} (h : ∀ e ∈ l, key < e.1) :
    l.find? (fun e => e.1 = key) = none := by
  refine List.find?_eq_none.2 fun e he => ?_
  rw [decide_eq_true_iff]
  rintro rfl
  exact String.lt_irrefl _ (h e he)

theorem find?_alterEntries {key : String} {f : Option α → α} {l : List (String × α)}
    (h : l.Pairwise (fun a b => a.1 < b.1)) (k : String) :
    ((alterEntries key f l).find? (fun e => e.1 = k)).map (·.2) =
      if k = key then some (f ((l.find? (fun e => e.1 = key)).map (·.2)))
      else (l.find? (fun e => e.1 = k)).map (·.2) := by
  induction l with
  | nil =>
    by_cases hk : k = key
    · simp [alterEntries, hk]
    · simp [alterEntries, hk, Ne.symm hk]
  | cons p rest ih =>
    obtain ⟨k₀, v⟩ := p
    obtain ⟨hk₀, hrest⟩ := List.pairwise_cons.1 h
    rcases Decidable.em (key < k₀) with hlt | hge
    · have hnone : ((k₀, v) :: rest).find? (fun e => e.1 = key) = none := by
        refine find?_of_lt fun e he => ?_
        rcases List.mem_cons.1 he with rfl | he
        · exact hlt
        · exact String.lt_trans hlt (hk₀ e he)
      rw [alterEntries, if_pos hlt, hnone]
      by_cases hk : k = key
      · simp [hk]
      · simp [hk, Ne.symm hk]
    · by_cases heq : key = k₀
      · rw [alterEntries, if_neg hge, if_pos heq]
        subst heq
        by_cases hk : k = key
        · simp [hk]
        · simp [hk, Ne.symm hk]
      · rw [alterEntries, if_neg hge, if_neg heq, List.find?_cons, List.find?_cons, List.find?_cons]
        by_cases hk : k₀ = k
        · simp [hk, show k ≠ key from fun h => heq (h ▸ hk.symm)]
        · simpa [hk, Ne.symm heq] using ih hrest

@[simp] theorem find?_empty (key : String) : (empty : Keyed α).find? key = none := rfl

@[simp] theorem find?_alter (m : Keyed α) (key : String) (f : Option α → α) (k : String) :
    (m.alter key f).find? k = if k = key then some (f (m.find? key)) else m.find? k :=
  find?_alterEntries m.ascending k

@[simp] theorem find?_insert (m : Keyed α) (key : String) (value : α) (k : String) :
    (m.insert key value).find? k = if k = key then some value else m.find? k :=
  find?_alter m key _ k

end Keyed
end TerraformCloud
