/-
  TerraformCloud/Proofs/Schema/Grown.lean
  =======================================
  **Members that nobody looks for are passed over.**

  A record is read from what is found under the names of its fields.  One more member,
  under another name, changes nothing of that (`slots?_of_joined`), and a change inside of
  one field changes what is found for this field alone (`slots?_of_inside`).  So whatever
  is read of a value before it grows somewhere inside is read of it afterwards, by
  induction on the type of the value (`FieldType.preserves`).
-/
import TerraformCloud.Proofs.Lists
import TerraformCloud.Proofs.Schema.Stable

namespace TerraformCloud.Schema

open Json (Written)

/-! ## 1. One more member, and one that changes -/

/-- An object gets one more member, under a name that is none of these. -/
inductive Joined (names : List String) : Written → Written → Prop where
  | mk {before after : List (Option String × Written)} {name : String} {w : Written}
      (unknown : name ∉ names) :
      Joined names (.object (before ++ after)) (.object (before ++ (some name, w) :: after))

/-- In a record with fields of these names, what stands for one name changes. -/
inductive Inside (names : List String) (name : String) (R : Written → Written → Prop) :
    Written → Written → Prop where
  | member {before after : List (Option String × Written)} {w w' : Written} (inside : R w w') :
      Inside names name R (.object (before ++ (some name, w) :: after))
        (.object (before ++ (some name, w') :: after))
  | place {before after : List Written} {w w' : Written} (named : names[before.length]? = some name)
      (inside : R w w') : Inside names name R (.array (before ++ w :: after)) (.array (before ++ w' :: after))

/-- One item of an array changes. -/
inductive InItem (R : Written → Written → Prop) : Written → Written → Prop where
  | mk {before after : List Written} {w w' : Written} (inside : R w w') :
      InItem R (.array (before ++ w :: after)) (.array (before ++ w' :: after))

/-- What was found for the names, before and after: only what stands for one of them may
    have changed. -/
def Passed (names : List String) (name : String) (R : Written → Written → Prop)
    (found found' : List (Option Written)) : Prop :=
  ∀ i : Nat, found'[i]? = found[i]? ∨
    ∃ w w', names[i]? = some name ∧ found[i]? = some (some w) ∧ found'[i]? = some (some w') ∧ R w w'

theorem passed_cons {names : List String} {n name : String} {R : Written → Written → Prop}
    {x x' : Option Written} {found found' : List (Option Written)}
    (h : Passed (n :: names) name R (x :: found) (x' :: found')) :
    (x' = x ∨ n = name ∧ ∃ w w', x = some w ∧ x' = some w' ∧ R w w') ∧ Passed names name R found found' := by
  constructor
  · rcases h 0 with hsame | ⟨w, w', hname, hw, hw', hgrows⟩
    · exact .inl (Option.some.inj hsame)
    · exact .inr ⟨Option.some.inj hname, w, w', Option.some.inj hw, Option.some.inj hw', hgrows⟩
  · exact fun i => h (i + 1)

section Slots

variable {names : List String} {name : String} {R : Written → Written → Prop} {w w' : Written}
variable {before after : List (Option String × Written)}

/-- What is found in an object: every key is a text, and none of the names occurs twice. -/
theorem slots?_object_eq_some_iff {members : List (Option String × Written)} {found : List (Option Written)} :
    slots? names (.object members) = some found ↔ (∀ m ∈ members, m.1.isNone = false) ∧
      (∀ n ∈ names, members.countP (fun m => m.1 = some n) ≤ 1) ∧
      found = names.map fun n => (members.find? fun m => m.1 = some n).map (·.2) := by
  rw [slots?]
  by_cases hkeys : members.any (fun m => m.1.isNone) = true
  · rw [if_pos hkeys]
    obtain ⟨m, hm, hnone⟩ := List.any_eq_true.1 hkeys
    refine iff_of_false (Option.some_ne_none found).symm fun h => ?_
    rw [h.1 m hm] at hnone
    cases hnone
  by_cases honce : names.any (fun n => 1 < members.countP fun m => m.1 = some n) = true
  · rw [if_neg hkeys, if_pos honce]
    obtain ⟨n, hn, htwice⟩ := List.any_eq_true.1 honce
    refine iff_of_false (Option.some_ne_none found).symm fun h => ?_
    exact absurd (h.2.1 n hn) (Nat.not_le.2 (of_decide_eq_true htwice))
  · rw [if_neg hkeys, if_neg honce, Option.some.injEq]
    rw [Bool.not_eq_true, List.any_eq_false] at hkeys honce
    constructor
    · rintro rfl
      exact ⟨fun m hm => Bool.eq_false_iff.2 (hkeys m hm), by simpa using honce, rfl⟩
    · exact fun h => h.2.2.symm

/-- What is found in an array: there are no more items than names. -/
theorem slots?_array_eq_some_iff {items : List Written} {found : List (Option Written)} :
    slots? names (.array items) = some found ↔ items.length ≤ names.length ∧
      found = (List.range names.length).map fun i => items[i]? := by
  rw [slots?]
  by_cases hmany : names.length < items.length
  · rw [if_pos hmany]
    exact iff_of_false (Option.some_ne_none found).symm fun h => absurd h.1 (Nat.not_le.2 hmany)
  · rw [if_neg hmany, Option.some.injEq, eq_comm, and_iff_right (Nat.not_lt.1 hmany)]

/-- A member does not stand for another name. -/
theorem find?_other {n : String} (h : name ≠ n) :
    (before ++ (some name, w) :: after).find? (fun m => m.1 = some n) =
      (before ++ after).find? fun m => m.1 = some n := by
  have hne : decide ((some name : Option String) = some n) = false :=
    decide_eq_false fun heq => h (Option.some.inj heq)
  rw [List.find?_append, List.find?_append, List.find?_cons, hne]

theorem countP_other {n : String} (h : name ≠ n) :
    (before ++ (some name, w) :: after).countP (fun m => m.1 = some n) =
      (before ++ after).countP fun m => m.1 = some n := by
  have hne : decide ((some name : Option String) = some n) = false :=
    decide_eq_false fun heq => h (Option.some.inj heq)
  rw [List.countP_append, List.countP_append, List.countP_cons, hne, if_neg Bool.false_ne_true, Nat.add_zero]

theorem countP_member : (before ++ (some name, w) :: after).countP (fun m => m.1 = some name) =
    (before ++ after).countP (fun m => m.1 = some name) + 1 := by
  rw [List.countP_append, List.countP_append, List.countP_cons, if_pos (decide_eq_true rfl), Nat.add_assoc]

/-- If a name occurs once, no other member has it. -/
theorem countP_others (h : (before ++ (some name, w) :: after).countP (fun m => m.1 = some name) ≤ 1) :
    (before ++ after).countP (fun m => m.1 = some name) = 0 := by
  rw [countP_member] at h
  exact Nat.le_zero.1 (Nat.le_of_succ_le_succ h)

/-- A member with a name has a key that is a text. -/
theorem keys_member : (∀ m ∈ before ++ (some name, w) :: after, m.1.isNone = false) ↔
    ∀ m ∈ before ++ after, m.1.isNone = false := by
  simp only [List.forall_mem_append, List.forall_mem_cons, Option.isNone_some, true_and]

/-- A member is found under its name, if that occurs once. -/
theorem find?_member (h : (before ++ after).countP (fun m => m.1 = some name) = 0) :
    (before ++ (some name, w) :: after).find? (fun m => m.1 = some name) = some (some name, w) := by
  have hbefore : before.find? (fun m => m.1 = some name) = none := by
    rw [List.find?_eq_none]
    exact fun m hm => List.countP_eq_zero.1 h m (List.mem_append_left _ hm)
  rw [List.find?_append, hbefore, List.find?_cons, decide_eq_true rfl]
  rfl

/-- **Other names do not matter.** -/
theorem slots?_of_joined (h : Joined names w w') : slots? names w' = slots? names w := by
  obtain @⟨before, after, other, x, unknown⟩ := h
  have hother : ∀ n ∈ names, other ≠ n := by
    rintro n hn rfl
    exact unknown hn
  have hfind : (names.map fun n => ((before ++ (some other, x) :: after).find? fun m => m.1 = some n).map (·.2)) =
      names.map fun n => ((before ++ after).find? fun m => m.1 = some n).map (·.2) :=
    List.map_congr_left fun n hn => by rw [find?_other (hother n hn)]
  apply Option.ext
  intro found
  rw [slots?_object_eq_some_iff, slots?_object_eq_some_iff, hfind]
  refine and_congr keys_member (and_congr_left' (forall₂_congr fun n hn => ?_))
  rw [countP_other (hother n hn)]

/-- **What changes in a record is found under its name.** -/
theorem slots?_of_inside (h : Inside names name R w w') {found : List (Option Written)}
    (hfound : slots? names w = some found) :
    ∃ found', slots? names w' = some found' ∧ Passed names name R found found' := by
  cases h with
  | @member before after x x' inside =>
    obtain ⟨hkeys, honce, rfl⟩ := slots?_object_eq_some_iff.1 hfound
    refine ⟨_, slots?_object_eq_some_iff.2 ⟨keys_member.2 (keys_member.1 hkeys), ?_, rfl⟩, fun i => ?_⟩
    · intro n hn
      have hle := honce n hn
      rwa [List.countP_append, List.countP_cons] at hle ⊢
    rw [List.getElem?_map, List.getElem?_map]
    cases hi : names[i]? with
    | none => exact .inl rfl
    | some n =>
      rw [Option.map_some, Option.map_some]
      by_cases heq : name = n
      · subst heq
        have hzero := countP_others (honce name (List.mem_of_getElem? hi))
        rw [find?_member hzero, find?_member hzero]
        exact .inr ⟨x, x', rfl, rfl, rfl, inside⟩
      · left
        rw [find?_other heq, find?_other heq]
  | @place before after x x' named inside =>
    obtain ⟨hfits, rfl⟩ := slots?_array_eq_some_iff.1 hfound
    refine ⟨_, slots?_array_eq_some_iff.2 ⟨?_, rfl⟩, fun i => ?_⟩
    · simpa using hfits
    rw [List.getElem?_map, List.getElem?_map]
    by_cases hi : i < names.length
    · rw [List.getElem?_range hi, Option.map_some, Option.map_some]
      rcases Nat.lt_trichotomy i before.length with hlt | rfl | hgt
      · left
        rw [List.getElem?_append_left hlt, List.getElem?_append_left hlt]
      · right
        exact ⟨x, x', named, by simp, by simp, inside⟩
      · left
        obtain ⟨k, rfl⟩ := Nat.exists_eq_add_of_lt hgt
        simp [List.getElem?_append_right, Nat.add_assoc]
    · left
      rw [List.getElem?_eq_none (by simpa using hi)]
      rfl

/-- Where the names are different, what stands for the changed one is what has changed. -/
theorem changed_of_inside (hnames : names.Nodup) (h : Inside names name R w w')
    {found found' : List (Option Written)} (hfound : slots? names w = some found)
    (hfound' : slots? names w' = some found') {i : Nat} (hi : names[i]? = some name) :
    ∃ x x', found[i]? = some (some x) ∧ found'[i]? = some (some x') ∧ R x x' := by
  cases h with
  | @member before after x x' inside =>
    obtain ⟨-, honce, rfl⟩ := slots?_object_eq_some_iff.1 hfound
    obtain ⟨-, -, rfl⟩ := slots?_object_eq_some_iff.1 hfound'
    have hzero := countP_others (honce name (List.mem_of_getElem? hi))
    rw [List.getElem?_map, List.getElem?_map, hi, Option.map_some, Option.map_some, find?_member hzero,
      find?_member hzero]
    exact ⟨x, x', rfl, rfl, inside⟩
  | @place before after x x' named inside =>
    obtain ⟨-, rfl⟩ := slots?_array_eq_some_iff.1 hfound
    obtain ⟨-, rfl⟩ := slots?_array_eq_some_iff.1 hfound'
    obtain ⟨hlt, -⟩ := List.getElem?_eq_some_iff.1 hi
    obtain rfl : i = before.length := (List.getElem?_inj hlt hnames).1 (hi.trans named.symm)
    rw [List.getElem?_map, List.getElem?_map, List.getElem?_range hlt]
    exact ⟨x, x', by simp, by simp, inside⟩

/-- **A member that was missing is found under its name**, and nothing else changes. -/
theorem slots?_of_missing {found : List (Option Written)} (hmissing : ∀ m ∈ before ++ after, m.1 ≠ some name)
    (hfound : slots? names (.object (before ++ after)) = some found) :
    slots? names (.object (before ++ (some name, w) :: after)) =
      some (List.zipWith (fun n x => if n = name then some w else x) names found) := by
  have hzero : (before ++ after).countP (fun m => m.1 = some name) = 0 :=
    List.countP_eq_zero.2 fun m hm => by simpa using hmissing m hm
  obtain ⟨hkeys, honce, rfl⟩ := slots?_object_eq_some_iff.1 hfound
  rw [slots?_object_eq_some_iff]
  refine ⟨keys_member.2 hkeys, ?_, ?_⟩
  · intro n hn
    by_cases heq : name = n
    · subst heq
      exact Nat.le_of_eq (countP_member.trans (congrArg (· + 1) hzero))
    · rw [countP_other heq]
      exact honce n hn
  · rw [List.zipWith_map_right, List.zipWith_self]
    refine List.map_congr_left fun n _ => ?_
    by_cases heq : name = n
    · subst heq
      rw [find?_member hzero, if_pos rfl]
      rfl
    · rw [find?_other heq, if_neg (Ne.symm heq)]

end Slots

/-! ## 2. Values that grow -/

mutual
/-- One object somewhere inside of a value of this type gets one more member, under a name
    that is not known there. -/
def FieldType.Grows : FieldType → Written → Written → Prop
  | .optional type => type.Grows
  | .list type => InItem type.Grows
  | .record fields => fun w w' =>
    Joined fields.names w w' ∨ ∃ name, Inside fields.names name (fields.Grows name) w w'
  | .text | .flag | .natural32 | .natural64 | .time | .word _ => fun _ _ => False

/-- What stands for a name grows as the field of this name does.  What stands for no field
    is passed over, and may become anything. -/
def Fields.Grows : Fields → String → Written → Written → Prop
  | .nil, _ => fun _ _ => True
  | .cons name _ type rest, changed => fun w w' =>
    (name = changed → type.Grows w w') ∧ rest.Grows changed w w'
end

theorem InItem.preserves {β : Type} {read? : Written → Option β} {R : Written → Written → Prop} {w w' : Written}
    (h : InItem R w w') (hR : ∀ x x', R x x' → Preserves read? x x') :
    Preserves (fun w => (itemsOf? w).bind (·.mapM read?)) w w' := by
  obtain @⟨before, after, x, x', inside⟩ := h
  exact (hR x x' inside).item before after

/-- What grows is an object or an array. -/
theorem FieldType.Grows.ne_null : (type : FieldType) → {w w' : Written} → type.Grows w w' →
    w ≠ .null ∧ w' ≠ .null
  | .optional type, _, _, h => ne_null type h
  | .list _, _, _, h => by
    obtain ⟨_⟩ := h
    constructor <;> intro heq <;> cases heq
  | .record _, _, _, h => by
    rcases h with hjoined | ⟨_, hinside⟩
    · cases hjoined
      constructor <;> intro heq <;> cases heq
    · cases hinside <;> constructor <;> intro heq <;> cases heq

/-- An array that grows holds as many items as before. -/
theorem isCutShort_of_grows {fields : Fields} {w w' : Written} (h : (FieldType.record fields).Grows w w') :
    fields.isCutShort w' = fields.isCutShort w := by
  rcases h with hjoined | ⟨name, hinside⟩
  · cases hjoined
    rfl
  · cases hinside with
    | member inside => rfl
    | place named inside => simp [Fields.isCutShort]

theorem read?_optional {type : FieldType} {depth : Nat} {w : Written} (h : w ≠ .null) :
    (FieldType.optional type).read? depth w = (type.read? depth w).map some := by
  cases w with
  | null => exact absurd rfl h
  | _ => rfl

mutual
/-- **What is read of a value is read of it after it has grown.** -/
theorem FieldType.preserves : (type : FieldType) → {w w' : Written} → type.Grows w w' → (depth : Nat) →
    Preserves (type.read? depth) w w'
  | .optional type, w, w', h, depth => by
    intro x hx
    obtain ⟨hw, hw'⟩ := FieldType.Grows.ne_null type h
    rw [read?_optional hw] at hx
    obtain ⟨y, hy, rfl⟩ := Option.map_eq_some_iff.1 hx
    rw [read?_optional hw', type.preserves h depth y hy]
    rfl
  | .list type, w, w', h, depth => by
    intro x hx
    rw [FieldType.read?] at hx ⊢
    split at hx
    · cases hx
    next hdepth =>
    rw [if_neg hdepth]
    exact InItem.preserves h (fun _ _ h => type.preserves h (depth - 1)) x hx
  | .record fields, w, w', h, depth => by
    intro x hx
    rw [FieldType.read?] at hx ⊢
    rw [isCutShort_of_grows h]
    split at hx
    · cases hx
    next hwhole =>
    rw [if_neg hwhole]
    rcases h with hjoined | ⟨name, hinside⟩
    · rwa [slots?_of_joined hjoined]
    · obtain ⟨found, hfound, hread⟩ := Option.bind_eq_some_iff.1 hx
      obtain ⟨found', hfound', hpassed⟩ := slots?_of_inside hinside hfound
      rw [hfound']
      exact fields.preserves hpassed (depth - 1) x hread

/-- A record is read field by field, and no field but those of the changed name has changed. -/
theorem Fields.preserves : (fields : Fields) → {name : String} → {found found' : List (Option Written)} →
    Passed fields.names name (fields.Grows name) found found' → (depth : Nat) → (x : fields.Record) →
    fields.read? depth found = some x → fields.read? depth found' = some x
  | .nil, _, _, _, _, _, _, _ => rfl
  | .cons field presence type rest, name, found, found', h, depth, x, hx => by
    have hrest : Passed rest.names name (rest.Grows name) found.tail found'.tail := by
      intro i
      rw [List.getElem?_tail, List.getElem?_tail]
      rcases h (i + 1) with hsame | ⟨w, w', hname, hw, hw', hgrows⟩
      · exact .inl hsame
      · exact .inr ⟨w, w', hname, hw, hw', hgrows.2⟩
    rw [read?_cons] at hx ⊢
    obtain ⟨v, hv, hx⟩ := Option.bind_eq_some_iff.1 hx
    obtain ⟨r, hr, rfl⟩ := Option.map_eq_some_iff.1 hx
    have hhead : Fields.value? presence type depth found'.head?.join = some v := by
      rw [List.head?_eq_getElem?] at hv ⊢
      rcases h 0 with hsame | ⟨w, w', hname, hw, hw', hgrows⟩
      · rwa [hsame]
      · rw [hw] at hv
        rw [hw']
        exact type.preserves (hgrows.1 (Option.some.inj hname)) depth v hv
    rw [hhead, Option.bind_some, rest.preserves hrest depth r hr]
    rfl
end

end TerraformCloud.Schema
