/-
  TerraformCloud/Proofs/Keyed.lean
  ================================
  **A map is determined by what it finds.**

  The entries of a map are what `find?` finds, each key once (`mem_entries_iff`).  So
  what was put together entry by entry can be told from looking up alone, and storing
  the entries of a map one after the other gives the map back (`ofList_entries`).  Going through
  the entries for a value of some kind leads to the smallest key that has one
  (`find?_entries_eq_some_iff`).  What is taken out is no longer found, and nothing else
  changes (`find?_erase_eq_some_iff`).
-/
import Mathlib.Data.List.Nodup
import TerraformCloud.Keyed

namespace TerraformCloud.Keyed

variable {α : Type}

/-! ## 1. Entries and lookups -/

theorem find?_eq_of_mem {l : List (String × α)} (h : l.Pairwise (fun a b => a.1 < b.1))
    {key : String} {value : α} (hmem : (key, value) ∈ l) :
    l.find? (fun e => e.1 = key) = some (key, value) := by
  induction l with
  | nil => cases hmem
  | cons e l ih =>
    obtain ⟨hfirst, hrest⟩ := List.pairwise_cons.1 h
    rcases List.mem_cons.1 hmem with rfl | hmem
    · exact List.find?_cons_of_pos (decide_eq_true rfl)
    · have hne : e.1 ≠ key := by
        intro heq
        have hlt := hfirst _ hmem
        rw [heq] at hlt
        exact String.lt_irrefl key hlt
      rw [List.find?_cons_of_neg (by simpa using hne)]
      exact ih hrest hmem

/-- **The entries are what is found.** -/
theorem mem_entries_iff (m : Keyed α) (key : String) (value : α) :
    (key, value) ∈ m.entries ↔ m.find? key = some value := by
  constructor
  · intro h
    rw [find?, find?_eq_of_mem m.ascending h]
    rfl
  · intro h
    obtain ⟨e, he, rfl⟩ := Option.map_eq_some_iff.1 h
    have hkey : e.1 = key := by simpa using List.find?_some he
    rw [← hkey]
    exact List.mem_of_find?_eq_some he

theorem mem_keys_iff (m : Keyed α) (key : String) : key ∈ m.keys ↔ (m.find? key).isSome := by
  rw [keys, List.mem_map]
  constructor
  · rintro ⟨⟨k, value⟩, hmem, rfl⟩
    rw [(mem_entries_iff m k value).1 hmem]
    rfl
  · intro h
    obtain ⟨value, hvalue⟩ := Option.isSome_iff_exists.1 h
    exact ⟨(key, value), (mem_entries_iff m key value).2 hvalue, rfl⟩

theorem mem_values_iff (m : Keyed α) (value : α) : value ∈ m.values ↔ ∃ key, m.find? key = some value := by
  simp [values, ← mem_entries_iff]

/-- The entry with the smallest key among those whose value passes a test. -/
structure IsFirst (m : Keyed α) (p : α → Bool) (key : String) (value : α) : Prop where
  stored : m.find? key = some value
  passes : p value = true
  least : ∀ k v, m.find? k = some v → p v = true → key ≤ k

section First

variable {m : Keyed α} {p : α → Bool} {key : String} {value : α}

theorem IsFirst.unique {k : String} {v : α} (h : IsFirst m p key value) (h' : IsFirst m p k v) :
    (key, value) = (k, v) := by
  have hkey : key = k :=
    String.le_antisymm (h.least k v h'.stored h'.passes) (h'.least key value h.stored h.passes)
  have hvalue : value = v := Option.some.inj (h.stored.symm.trans (hkey ▸ h'.stored))
  rw [hkey, hvalue]

theorem isFirst_of_find? (h : m.entries.find? (fun e => p e.2) = some (key, value)) :
    IsFirst m p key value := by
  obtain ⟨hpasses, before, behind, hsplit, hbefore⟩ := List.find?_eq_some_iff_append.1 h
  have hascending := m.ascending
  rw [hsplit, List.pairwise_append, List.pairwise_cons] at hascending
  obtain ⟨-, ⟨hbehind, -⟩, -⟩ := hascending
  refine ⟨(mem_entries_iff m key value).1 (List.mem_of_find?_eq_some h), hpasses, ?_⟩
  intro k v hstored hv
  rw [← mem_entries_iff, hsplit] at hstored
  rcases List.mem_append.1 hstored with hmem | hmem
  · have hfails := hbefore _ hmem
    simp [hv] at hfails
  · rcases List.mem_cons.1 hmem with heq | hmem
    · cases heq
      exact String.le_refl key
    · exact String.not_lt.1 (String.lt_asymm (hbehind _ hmem))

/-- **A search through the entries ends at the smallest key.** -/
theorem find?_entries_eq_some_iff :
    m.entries.find? (fun e => p e.2) = some (key, value) ↔ IsFirst m p key value := by
  refine ⟨isFirst_of_find?, fun h => ?_⟩
  have hsome : (m.entries.find? fun e => p e.2).isSome = true :=
    List.find?_isSome.2 ⟨_, (mem_entries_iff m key value).2 h.stored, h.passes⟩
  obtain ⟨⟨k, v⟩, hfound⟩ := Option.isSome_iff_exists.1 hsome
  rw [hfound, (isFirst_of_find? hfound).unique h]

theorem find?_entries_eq_none_iff :
    m.entries.find? (fun e => p e.2) = none ↔ ∀ k v, m.find? k = some v → p v = false := by
  simp [← mem_entries_iff]

end First

theorem keys_ascending (m : Keyed α) : m.keys.Pairwise (· < ·) := List.pairwise_map.2 m.ascending

theorem filter_entries (m : Keyed α) (key : String) :
    m.entries.filter (fun e => e.1 = key) = ((m.find? key).map (key, ·)).toList := by
  obtain ⟨l, h⟩ := m
  unfold find?
  dsimp only
  induction l with
  | nil => rfl
  | cons e l ih =>
    obtain ⟨hfirst, hrest⟩ := List.pairwise_cons.1 h
    by_cases heq : e.1 = key
    · -- all other keys are greater
      have hnone : l.filter (fun e => e.1 = key) = [] := by
        refine List.filter_eq_nil_iff.2 fun d hd => ?_
        rw [decide_eq_true_iff]
        intro hd'
        have hlt := hfirst d hd
        rw [heq, hd'] at hlt
        exact String.lt_irrefl key hlt
      rw [List.filter_cons_of_pos (by simpa using heq), hnone,
        List.find?_cons_of_pos (by simpa using heq), ← heq]
      rfl
    · rw [List.filter_cons_of_neg (by simpa using heq), List.find?_cons_of_neg (by simpa using heq)]
      exact ih hrest

theorem nodup_entries (m : Keyed α) : m.entries.Nodup := by
  refine m.ascending.imp ?_
  rintro a b hlt rfl
  exact String.lt_irrefl _ hlt

theorem eq_of_perm {m n : Keyed α} (h : m.entries.Perm n.entries) : m = n := by
  refine ext (h.eq_of_pairwise ?_ m.ascending n.ascending)
  intro a b _ _ hab hba
  exact absurd hab (String.lt_asymm hba)

/-- **Maps that find the same are the same.** -/
theorem eq_of_find?_eq {m n : Keyed α} (h : ∀ key, m.find? key = n.find? key) : m = n := by
  refine eq_of_perm ((List.perm_ext_iff_of_nodup m.nodup_entries n.nodup_entries).2 ?_)
  rintro ⟨key, value⟩
  rw [mem_entries_iff, mem_entries_iff, h]

theorem eq_empty_of_isEmpty {m : Keyed α} (h : m.isEmpty = true) : m = empty :=
  ext (List.isEmpty_iff.1 h)

/-! ## 2. Storing entries in order -/

theorem alterEntries_of_lt {key : String} {f : Option α → α} {l : List (String × α)}
    (h : ∀ e ∈ l, e.1 < key) : alterEntries key f l = l ++ [(key, f none)] := by
  induction l with
  | nil => rfl
  | cons e l ih =>
    have hlt := h e List.mem_cons_self
    rw [alterEntries, if_neg (String.lt_asymm hlt), if_neg (fun heq => String.lt_irrefl _ (heq ▸ hlt)),
      ih fun d hd => h d (List.mem_cons_of_mem _ hd)]
    rfl

theorem foldl_insert_entries {l : List (String × α)} (m : Keyed α)
    (h : (m.entries ++ l).Pairwise (fun a b => a.1 < b.1)) :
    (l.foldl (fun m e => m.insert e.1 e.2) m).entries = m.entries ++ l := by
  induction l generalizing m with
  | nil => rw [List.append_nil]; rfl
  | cons e l ih =>
    have hlast : (m.insert e.1 e.2).entries = m.entries ++ [e] := by
      refine alterEntries_of_lt fun d hd => ?_
      exact (List.pairwise_append.1 h).2.2 d hd e List.mem_cons_self
    have hsplit : m.entries ++ e :: l = (m.insert e.1 e.2).entries ++ l := by
      rw [hlast, List.append_assoc]
      rfl
    rw [List.foldl_cons, ih _ (hsplit ▸ h), hsplit]

/-- **Storing the entries of a map gives the map.** -/
theorem ofList_entries (m : Keyed α) : ofList m.entries = m := by
  apply ext
  exact foldl_insert_entries empty m.ascending

/-! ## 3. Storing entries in any order -/

theorem mem_insert_entries {m : Keyed α} {key : String} {value : α} {e : String × α}
    (h : e ∈ (m.insert key value).entries) : e = (key, value) ∨ e ∈ m.entries := by
  obtain ⟨k, v⟩ := e
  rw [mem_entries_iff, find?_insert] at h
  split at h
  · next heq =>
    cases h
    rw [heq]
    exact .inl rfl
  · exact .inr ((mem_entries_iff m k v).2 h)

theorem mem_of_mem_ofList {l : List (String × α)} {e : String × α} (h : e ∈ (ofList l).entries) :
    e ∈ l := by
  have hfold : ∀ (l : List (String × α)) (m : Keyed α),
      e ∈ (l.foldl (fun m e => m.insert e.1 e.2) m).entries → e ∈ l ∨ e ∈ m.entries := by
    intro l
    induction l with
    | nil => exact fun m he => .inr he
    | cons d l ih =>
      intro m he
      rcases ih (m.insert d.1 d.2) he with he | he
      · exact .inl (List.mem_cons_of_mem _ he)
      · rcases mem_insert_entries he with rfl | he
        · exact .inl List.mem_cons_self
        · exact .inr he
  rcases hfold l empty h with h | h
  · exact h
  · cases h

theorem find?_foldl_insert {l : List (String × α)} (h : (l.map (·.1)).Nodup) (m : Keyed α)
    (key : String) :
    (l.foldl (fun m e => m.insert e.1 e.2) m).find? key =
      ((l.find? fun e => e.1 = key).map (·.2)).or (m.find? key) := by
  induction l generalizing m with
  | nil => rfl
  | cons e l ih =>
    obtain ⟨hfresh, hrest⟩ := List.nodup_cons.1 h
    rw [List.foldl_cons, ih hrest, find?_insert]
    by_cases heq : e.1 = key
    · have hnone : l.find? (fun d => d.1 = key) = none := by
        refine List.find?_eq_none.2 fun d hd => ?_
        rw [decide_eq_true_iff]
        intro hd'
        exact hfresh (List.mem_map.2 ⟨d, hd, hd'.trans heq.symm⟩)
      rw [hnone, if_pos heq.symm, List.find?_cons_of_pos (by simpa using heq)]
      rfl
    · rw [if_neg (Ne.symm heq), List.find?_cons_of_neg (by simpa using heq)]

theorem find?_ofList {l : List (String × α)} (h : (l.map (·.1)).Nodup) (key : String) :
    (ofList l).find? key = (l.find? fun e => e.1 = key).map (·.2) := by
  rw [ofList, find?_foldl_insert h, find?_empty, Option.or_none]

theorem find?_eq_of_nodup {l : List (String × α)} (h : (l.map (·.1)).Nodup) {e : String × α}
    (he : e ∈ l) : l.find? (fun d => d.1 = e.1) = some e := by
  induction l with
  | nil => cases he
  | cons d l ih =>
    obtain ⟨hfresh, hrest⟩ := List.nodup_cons.1 h
    rcases List.mem_cons.1 he with rfl | he
    · exact List.find?_cons_of_pos (decide_eq_true rfl)
    · have hne : d.1 ≠ e.1 := fun heq => hfresh (List.mem_map.2 ⟨e, he, heq.symm⟩)
      rw [List.find?_cons_of_neg (by simpa using hne)]
      exact ih hrest he

/-- **Pairs with different keys are all kept.** -/
theorem mem_ofList_iff {l : List (String × α)} (h : (l.map (·.1)).Nodup) (e : String × α) :
    e ∈ (ofList l).entries ↔ e ∈ l := by
  rw [mem_entries_iff, find?_ofList h]
  constructor
  · intro hfound
    obtain ⟨d, hd, hvalue⟩ := Option.map_eq_some_iff.1 hfound
    have hkey : d.1 = e.1 := by simpa using List.find?_some hd
    rw [← Prod.ext hkey hvalue]
    exact List.mem_of_find?_eq_some hd
  · intro he
    rw [find?_eq_of_nodup h he]
    rfl

theorem perm_ofList {l : List (String × α)} (h : (l.map (·.1)).Nodup) : (ofList l).entries.Perm l :=
  (List.perm_ext_iff_of_nodup (nodup_entries _) (List.Nodup.of_map _ h)).2 (mem_ofList_iff h)

/-- The order of pairs with different keys does not matter. -/
theorem ofList_eq_of_perm {l l' : List (String × α)} (h : (l.map (·.1)).Nodup) (hperm : l.Perm l') :
    ofList l = ofList l' := by
  have h' : (l'.map (·.1)).Nodup := (hperm.map _).nodup_iff.1 h
  exact eq_of_perm ((perm_ofList h).trans (hperm.trans (perm_ofList h').symm))

/-! ## 4. Storing and taking out -/

theorem find?_insert_eq_some_iff {m : Keyed α} {key k : String} {value found : α} :
    (m.insert key value).find? k = some found ↔
      k = key ∧ value = found ∨ k ≠ key ∧ m.find? k = some found := by
  rw [find?_insert]
  by_cases hk : k = key <;> simp [hk]

/-- The first entry stays the first one when its value is replaced by one that passes, too. -/
theorem IsFirst.insert {m : Keyed α} {p : α → Bool} {key : String} {value value' : α}
    (h : IsFirst m p key value) (hpasses : p value' = true) :
    IsFirst (m.insert key value') p key value' where
  stored := find?_insert_eq_some_iff.2 (.inl ⟨rfl, rfl⟩)
  passes := hpasses
  least k v hstored hv := by
    rcases find?_insert_eq_some_iff.1 hstored with ⟨rfl, -⟩ | ⟨-, hstored⟩
    · exact String.le_refl k
    · exact h.least k v hstored hv

theorem insert_comm {m : Keyed α} {key k : String} (h : k ≠ key) (value v : α) :
    (m.insert key value).insert k v = (m.insert k v).insert key value := by
  refine eq_of_find?_eq fun k' => ?_
  simp only [find?_insert]
  split
  · next hk =>
    rw [if_neg (hk ▸ h)]
  · rfl

/-- What is stored before pairs with other keys could be stored after them. -/
theorem foldl_insert_of_forall_ne {l : List (String × α)} {key : String} (h : ∀ e ∈ l, e.1 ≠ key)
    (m : Keyed α) (value : α) :
    l.foldl (fun m e => m.insert e.1 e.2) (m.insert key value) =
      (l.foldl (fun m e => m.insert e.1 e.2) m).insert key value := by
  induction l generalizing m with
  | nil => rfl
  | cons e l ih =>
    rw [List.foldl_cons, List.foldl_cons, insert_comm (h e List.mem_cons_self),
      ih fun d hd => h d (List.mem_cons_of_mem _ hd)]

@[simp] theorem find?_filter (m : Keyed α) (p : String → α → Bool) (key : String) :
    (m.filter p).find? key = (m.find? key).filter (p key) := by
  apply Option.ext
  intro value
  rw [← mem_entries_iff, filter, List.mem_filter, mem_entries_iff, Option.filter_eq_some_iff]

@[simp] theorem find?_erase (m : Keyed α) (key k : String) :
    (m.erase key).find? k = if k = key then none else m.find? k := by
  rw [erase, find?_filter]
  by_cases hk : k = key
  · simp [hk]
  · cases m.find? k <;> simp [hk]

theorem find?_filter_eq_some_iff {m : Keyed α} {p : String → α → Bool} {key : String} {found : α} :
    (m.filter p).find? key = some found ↔ m.find? key = some found ∧ p key found = true := by
  rw [find?_filter, Option.filter_eq_some_iff]

theorem find?_erase_eq_some_iff {m : Keyed α} {key k : String} {found : α} :
    (m.erase key).find? k = some found ↔ k ≠ key ∧ m.find? k = some found := by
  rw [find?_erase]
  by_cases hk : k = key <;> simp [hk]

theorem erase_of_find?_none {m : Keyed α} {key : String} (h : m.find? key = none) :
    m.erase key = m := by
  apply ext
  apply List.filter_eq_self.2
  rintro ⟨k, value⟩ hmem
  rw [mem_entries_iff] at hmem
  apply decide_eq_true
  rintro rfl
  simp [h] at hmem

end TerraformCloud.Keyed
