/-
  TerraformCloud/Proofs/Query/Options.lean
  ========================================
  **The parameters that options stand for.**

  Options can be parameters exactly if they are `Flat`.  They are flattened member by member,
  in the order of their keys, so what comes out is put together from single parameters, and
  below each key are the texts of its member (`ofOptions_of_flat`).  One member that is not
  flat, wherever it stands, and nothing comes out (`ofOptions_of_not_flat`).
-/
import TerraformCloud.Proofs.Json.Ordered
import TerraformCloud.Proofs.Query.Canonical

namespace TerraformCloud.Query

open Json (Value)

/-! ## 1. Flat options -/

/-- A value that is `null` or a scalar. -/
def Plain : Value → Prop
  | .array _ | .object _ => False
  | _ => True

instance : DecidablePred Plain
  | .null | .bool _ | .number _ | .string _ => .isTrue trivial
  | .array _ | .object _ => .isFalse id

def FlatField : Value → Prop
  | .array items => ∀ item ∈ items, Plain item
  | v => Plain v

instance : DecidablePred FlatField
  | .array items => inferInstanceAs (Decidable (∀ item ∈ items, Plain item))
  | .null | .bool _ | .number _ | .string _ => .isTrue trivial
  | .object _ => .isFalse id

/-- Options that are nothing, or an object of which every field is plain or a list of
    plain values.  Of several fields with one key the last counts. -/
def Flat : Value → Prop
  | .null => True
  | .object members => ∀ field ∈ (Keyed.ofList members).entries, FlatField field.2
  | _ => False

instance : DecidablePred Flat
  | .null => .isTrue trivial
  | .object members =>
    inferInstanceAs (Decidable (∀ field ∈ (Keyed.ofList members).entries, FlatField field.2))
  | .bool _ | .number _ | .string _ | .array _ => .isFalse id

/-- The text of a plain value: a string is its own text, and `null` has none. -/
def plainText? : Value → Option String
  | .null => none
  | .string s => some s
  | v => some v.compact

def fieldTexts : Value → List String
  | .array items => items.filterMap plainText?
  | v => (plainText? v).toList

/-- The texts of the field that options have below a key. -/
def textsAt (options : Value) (key : String) : List String :=
  match options with
  | .object members => ((Keyed.ofList members).find? key).elim [] fieldTexts
  | _ => []

theorem scalar_of_plain {v : Value} (h : Plain v) (field : String) :
    scalar field v = .ok (plainText? v) := by
  cases v with
  | null => rfl
  | bool b => cases b <;> rfl
  | number n => rfl
  | string s => rfl
  | array items => exact h.elim
  | object members => exact h.elim

theorem scalar_of_not_plain {v : Value} (h : ¬Plain v) (field : String) :
    scalar field v = .error (.notScalar field) := by
  cases v with
  | null => exact absurd trivial h
  | bool b => exact absurd trivial h
  | number n => exact absurd trivial h
  | string s => exact absurd trivial h
  | array items => rfl
  | object members => rfl

theorem scalars_of_plain {items : List Value} (h : ∀ item ∈ items, Plain item) (field : String) :
    items.mapM (scalar field) = .ok (items.map plainText?) := by
  rw [mapM_congr fun item hitem => scalar_of_plain (h item hitem) field]
  exact List.mapM_pure

theorem scalars_of_not_plain {items : List Value} (h : ¬∀ item ∈ items, Plain item)
    (field : String) : items.mapM (scalar field) = .error (.notScalar field) := by
  induction items with
  | nil => exact absurd nofun h
  | cons item items ih =>
    rw [List.mapM_cons]
    by_cases hitem : Plain item
    · rw [scalar_of_plain hitem, ih fun hitems => h (List.forall_mem_cons.2 ⟨hitem, hitems⟩)]
      rfl
    · rw [scalar_of_not_plain hitem]
      rfl

theorem fieldValues_of_flat {v : Value} (h : FlatField v) (field : String) :
    fieldValues field v = .ok (fieldTexts v) := by
  cases v with
  | null => rfl
  | bool b => cases b <;> rfl
  | number n => rfl
  | string s => rfl
  | array items =>
    rw [fieldValues, scalars_of_plain h]
    exact congrArg Except.ok (List.filterMap_map.trans rfl)
  | object members => exact h.elim

theorem fieldValues_of_not_flat {v : Value} (h : ¬FlatField v) (field : String) :
    fieldValues field v = .error (.notScalar field) := by
  cases v with
  | array items =>
    rw [fieldValues, scalars_of_not_plain h]
    rfl
  | object members => rfl
  | _ => exact absurd trivial h

theorem flat_of_fieldValues {v : Value} {field : String}
    (h : ∃ texts, fieldValues field v = .ok texts) : FlatField v := by
  by_contra hnot
  obtain ⟨texts, htexts⟩ := h
  rw [fieldValues_of_not_flat hnot] at htexts
  cases htexts

/-! ## 2. The texts of a member -/

theorem number_text_nat (n : Nat) : Json.Number.text (.integer n) = Nat.toDigits 10 n := by
  rw [Json.Number.text, if_neg (by omega), Int.natAbs_natCast, List.nil_append]

theorem fieldValues_natural (name : String) (n : Option UInt32) :
    fieldValues name (.opt (fun n => .nat n.toNat) n) =
      .ok (n.map fun n => String.ofList (Nat.toDigits 10 n.toNat)).toList := by
  cases n with
  | none => rfl
  | some n =>
    change Except.ok [String.ofList (Json.Number.text (.integer n.toNat))] = _
    rw [number_text_nat]
    rfl

theorem fieldValues_text (name : String) (text : Option String) :
    fieldValues name (.opt .string text) = .ok text.toList := by
  cases text <;> rfl

theorem fieldValues_texts (name : String) (texts : List String) :
    fieldValues name (.array (texts.map .string)) = .ok texts := by
  have hflat : FlatField (.array (texts.map .string)) := by
    intro item hitem
    obtain ⟨text, -, rfl⟩ := List.mem_map.1 hitem
    exact trivial
  rw [fieldValues_of_flat hflat, fieldTexts, List.filterMap_map]
  exact congrArg Except.ok List.filterMap_some

/-- The texts of a member; none, where it cannot be a parameter. -/
def memberTexts (m : String × Value) : List String := (fieldValues m.1 m.2).toOption.getD []

theorem memberTexts_of_ok {m : String × Value} {texts : List String} (h : fieldValues m.1 m.2 = .ok texts) :
    memberTexts m = texts := by
  rw [memberTexts, h]
  rfl

/-! ## 3. Members as parameters -/

/-- A query with several values of one key behind it. -/
def Assembly.appendAll (a : Assembly) (key : String) (values : List String) : Assembly :=
  values.foldl (fun a value => .append a key value) a

theorem Assembly.query_appendAll (a : Assembly) (key : String) (values : List String) :
    (a.appendAll key values).query = values.foldl (fun q v => q.append key v) a.query := by
  induction values generalizing a with
  | nil => rfl
  | cons value values ih => exact ih (.append a key value)

theorem Assembly.added_appendAll (a : Assembly) (key : String) (values : List String) :
    (a.appendAll key values).added = a.added ++ values.map (key, ·) := by
  induction values generalizing a with
  | nil => exact (List.append_nil _).symm
  | cons value values ih =>
    refine (ih (.append a key value)).trans ?_
    rw [Assembly.added, List.append_assoc]
    rfl

/-- Members are added one after the other. -/
theorem foldlM_of_flat {members : List (String × Value)} (h : ∀ m ∈ members, FlatField m.2)
    (a : Assembly) :
    ∃ b : Assembly,
      members.foldlM (fun q m => do
          return (← fieldValues m.1 m.2).foldl (fun q v => q.append m.1 v) q) a.query =
        Except.ok b.query ∧
      b.added = a.added ++ members.flatMap fun m => (fieldTexts m.2).map (m.1, ·) := by
  induction members generalizing a with
  | nil => exact ⟨a, rfl, (List.append_nil _).symm⟩
  | cons m members ih =>
    obtain ⟨b, hb, hadded⟩ :=
      ih (fun k hk => h k (List.mem_cons_of_mem _ hk)) (a.appendAll m.1 (fieldTexts m.2))
    refine ⟨b, ?_, ?_⟩
    · rw [List.foldlM_cons, fieldValues_of_flat (h m List.mem_cons_self)]
      rw [Assembly.query_appendAll] at hb
      exact hb
    · rw [hadded, Assembly.added_appendAll, List.flatMap_cons, List.append_assoc]

/-- A member that is not flat spoils what comes before it and what comes behind. -/
theorem foldlM_of_not_flat {members : List (String × Value)} (h : ∃ m ∈ members, ¬FlatField m.2)
    (q : Query) :
    ∃ e, members.foldlM (fun q m => do
        return (← fieldValues m.1 m.2).foldl (fun q v => q.append m.1 v) q) q = Except.error e := by
  induction members generalizing q with
  | nil => simp at h
  | cons m members ih =>
    rw [List.foldlM_cons]
    by_cases hfirst : FlatField m.2
    · rw [fieldValues_of_flat hfirst]
      refine ih ?_ _
      obtain ⟨n, hmem, hn⟩ := h
      rcases List.mem_cons.1 hmem with rfl | hmem
      · exact absurd hfirst hn
      · exact ⟨n, hmem, hn⟩
    · rw [fieldValues_of_not_flat hfirst]
      exact ⟨_, rfl⟩

/-- Of parameters that come from members, those of one key are the texts of its member. -/
theorem valuesOf_members (members : List (String × Value)) (key : String) :
    valuesOf key ((Value.orderMembers members).flatMap fun m => (fieldTexts m.2).map (m.1, ·)) =
      textsAt (.object members) key := by
  have hown : ∀ m ∈ (Keyed.ofList members).entries, ∀ p ∈ (fieldTexts m.2).map (m.1, ·),
      p.1 = m.1 := by
    intro m _ p hp
    obtain ⟨text, -, rfl⟩ := List.mem_map.1 hp
    rfl
  rw [Value.orderMembers_eq, valuesOf_flatMap hown, Keyed.filter_entries, textsAt]
  cases (Keyed.ofList members).find? key with
  | none => rfl
  | some v =>
    rw [Option.map_some, Option.toList_some, List.flatMap_singleton, List.map_map]
    exact List.map_id _

/-- **Flat options are put together from the texts of their members**, in key order. -/
theorem ofOptions_of_flat {options : Value} (h : Flat options) :
    ∃ a : Assembly, ofOptions options = .ok a.query ∧
      ∀ key, valuesOf key a.added = textsAt options key := by
  cases options with
  | null => exact ⟨.empty, rfl, fun _ => rfl⟩
  | object members =>
    rw [Flat, ← Value.orderMembers_eq] at h
    obtain ⟨a, ha, hadded⟩ := foldlM_of_flat h .empty
    refine ⟨a, ha, fun key => ?_⟩
    rw [hadded, Assembly.added, List.nil_append, valuesOf_members]
  | _ => exact h.elim

/-- **Other options are refused, wherever the member is that is not flat.** -/
theorem ofOptions_of_not_flat {options : Value} (h : ¬Flat options) :
    ∃ e, ofOptions options = .error e := by
  cases options with
  | null => exact absurd trivial h
  | object members =>
    rw [Flat, ← Value.orderMembers_eq] at h
    push Not at h
    exact foldlM_of_not_flat h .empty
  | _ => exact ⟨_, rfl⟩

/-! ## 4. Looking a name up -/

/-- **Below the name of a member are its texts.** -/
theorem valuesAt_ofOptions {members : List (String × Value)} (hkeys : (members.map (·.1)).Nodup)
    (h : ∀ m ∈ members, ∃ texts, fieldValues m.1 m.2 = .ok texts) :
    ∃ a : Assembly, ofOptions (.object members) = .ok a.query ∧
      ∀ m ∈ members, valuesAt a.query m.1 = memberTexts m := by
  have hflat : ∀ m ∈ members, FlatField m.2 := fun m hm => flat_of_fieldValues (h m hm)
  obtain ⟨a, ha, hadded⟩ := ofOptions_of_flat 
    (show Flat (.object members) from fun m hm => hflat m (Keyed.mem_of_mem_ofList hm))
  refine ⟨a, ha, fun m hm => ?_⟩
  rw [valuesAt_query, hadded, textsAt, Keyed.find?_ofList hkeys, Keyed.find?_eq_of_nodup hkeys hm]
  exact (memberTexts_of_ok (fieldValues_of_flat (hflat m hm) m.1)).symm

end TerraformCloud.Query
