/-
  TerraformCloud/Proofs/Json/Indented.lean
  ========================================
  **What is written for a person is read as it was, too.**

  The indented form of a value is its compact form with blanks in front of items, members
  and closing brackets, and behind the colons of members.  The parser skips blanks in all of
  these places (`parseValue_gap`, `parseMembers_gap`), so the indented form is read step by
  step as the compact one is.  Leaves and empty containers are the same in both forms.
-/
import TerraformCloud.Proofs.Json.Reading

namespace TerraformCloud.Json

open Value (indentedChars indentedItems indentedMembers newline)

/-! ## 1. Blanks -/

/-- The bytes of a new line are blanks. -/
theorem skipBlanks_newline (level : Nat) : skipBlanks (Utf8.encodeChars (newline level)) = [] := by
  have hascii : ∀ c ∈ newline level, c.toNat < 0x80 := by
    intro c hc
    rcases List.mem_cons.1 hc with rfl | hc
    · decide
    · rw [List.eq_of_mem_replicate hc]
      decide
  rw [encodeChars_of_ascii hascii, skipBlanks, List.dropWhile_eq_nil_iff]
  intro b hb
  obtain ⟨c, hc, rfl⟩ := List.mem_map.1 hb
  rcases List.mem_cons.1 hc with rfl | hc
  · decide
  · rw [List.eq_of_mem_replicate hc]
    decide

theorem parseValue_gap {gap : Bytes} (hgap : skipBlanks gap = []) (fuel : Nat) (input : Bytes) :
    parseValue fuel (gap ++ input) = parseValue fuel input := by
  rw [← parseValue_skipBlanks, skipBlanks_gap hgap, parseValue_skipBlanks]

theorem parseItems_gap {gap : Bytes} (hgap : skipBlanks gap = []) (fuel : Nat) (input : Bytes) :
    parseItems fuel (gap ++ input) = parseItems fuel input := by
  cases fuel with
  | zero => rw [parseItems, parseItems]
  | succ fuel => rw [parseItems, parseItems, parseValue_gap hgap]

theorem parseMembers_gap {gap : Bytes} (hgap : skipBlanks gap = []) (fuel : Nat) (input : Bytes) :
    parseMembers fuel (gap ++ input) = parseMembers fuel input := by
  cases fuel with
  | zero => rw [parseMembers, parseMembers]
  | succ fuel => rw [parseMembers, parseMembers, skipBlanks_gap hgap]

/-- A value may be followed by a new line. -/
theorem stops_newline (level : Nat) (rest : Bytes) : Stops (Utf8.encodeChars (newline level) ++ rest) :=
  .inr (.inr (.inr rfl))

/-! ## 2. Reading what was written -/

section Forms

variable (level : Nat)

theorem encodeChars_indentedArray (v : Value) (items : List Value) :
    Utf8.encodeChars (indentedChars level (.array (v :: items))) =
      openBracket :: (Utf8.encodeChars (indentedItems (level + 1) (v :: items)) ++
        (Utf8.encodeChars (newline level) ++ [closeBracket])) := by
  rw [indentedChars, List.isEmpty_cons, if_neg Bool.false_ne_true, List.cons_append, List.cons_append,
    Utf8.encodeChars_cons, Utf8.encodeChars_append, Utf8.encodeChars_append, List.append_assoc]
  rfl

theorem encodeChars_indentedObject (m : String × Value) (members : List (String × Value)) :
    Utf8.encodeChars (indentedChars level (.object (m :: members))) =
      openBrace :: (Utf8.encodeChars (indentedMembers (level + 1) (m :: members)) ++
        (Utf8.encodeChars (newline level) ++ [closeBrace])) := by
  rw [indentedChars, List.isEmpty_cons, if_neg Bool.false_ne_true, List.cons_append, List.cons_append,
    Utf8.encodeChars_cons, Utf8.encodeChars_append, Utf8.encodeChars_append, List.append_assoc]
  rfl

theorem encodeChars_indentedItem (v : Value) :
    Utf8.encodeChars (indentedItems level [v]) =
      Utf8.encodeChars (newline level) ++ Utf8.encodeChars (indentedChars level v) := by
  rw [indentedItems, Utf8.encodeChars_append]

theorem encodeChars_indentedItems (v w : Value) (items : List Value) :
    Utf8.encodeChars (indentedItems level (v :: w :: items)) =
      Utf8.encodeChars (newline level) ++ (Utf8.encodeChars (indentedChars level v) ++
        comma :: Utf8.encodeChars (indentedItems level (w :: items))) := by
  rw [indentedItems, Utf8.encodeChars_append, Utf8.encodeChars_append, Utf8.encodeChars_cons,
    List.append_assoc]
  · rfl
  · exact List.cons_ne_nil _ _

theorem encodeChars_indentedMember (key : String) (v : Value) :
    Utf8.encodeChars (indentedMembers level [(key, v)]) =
      Utf8.encodeChars (newline level) ++ (Utf8.encodeChars (quoted key) ++
        colon :: 0x20 :: Utf8.encodeChars (indentedChars level v)) := by
  rw [indentedMembers, Utf8.encodeChars_append, Utf8.encodeChars_append, Utf8.encodeChars_cons,
    Utf8.encodeChars_cons, List.append_assoc]
  rfl

theorem encodeChars_indentedMembers (key : String) (v : Value) (m : String × Value)
    (members : List (String × Value)) :
    Utf8.encodeChars (indentedMembers level ((key, v) :: m :: members)) =
      Utf8.encodeChars (newline level) ++ (Utf8.encodeChars (quoted key) ++
        colon :: 0x20 :: (Utf8.encodeChars (indentedChars level v) ++
          comma :: Utf8.encodeChars (indentedMembers level (m :: members)))) := by
  rw [indentedMembers, Utf8.encodeChars_append, Utf8.encodeChars_append, Utf8.encodeChars_append,
    Utf8.encodeChars_cons, Utf8.encodeChars_cons, Utf8.encodeChars_cons, List.append_assoc, List.append_assoc]
  · rfl
  · exact List.cons_ne_nil _ _

end Forms

/-- A value begins with a byte that ends no list. -/
theorem indented_head (level : Nat) (v : Value) (h : ∀ n ∈ v.numbers, n.ReadsBack) (rest : Bytes) :
    ∃ b body, skipBlanks (Utf8.encodeChars (indentedChars level v) ++ rest) = b :: body ∧ b ≠ closeBracket := by
  cases v with
  | array items =>
    cases items with
    | nil => exact ⟨openBracket, _, rfl, by decide⟩
    | cons v items =>
      rw [encodeChars_indentedArray]
      exact ⟨openBracket, _, rfl, by decide⟩
  | object members =>
    cases members with
    | nil => exact ⟨openBrace, _, rfl, by decide⟩
    | cons m members =>
      rw [encodeChars_indentedObject]
      exact ⟨openBrace, _, rfl, by decide⟩
  | _ => exact compact_head _ h rest

theorem skipBlanks_indentedItems (level : Nat) (v : Value) (items : List Value)
    (h : ∀ n ∈ v.numbers, n.ReadsBack) (rest r : Bytes) :
    skipBlanks (Utf8.encodeChars (indentedItems level (v :: items)) ++ rest) ≠ closeBracket :: r := by
  have hhead : ∀ more, skipBlanks (Utf8.encodeChars (newline level) ++
      (Utf8.encodeChars (indentedChars level v) ++ more)) ≠ closeBracket :: r := by
    intro more heq
    obtain ⟨b, body, hbody, hb⟩ := indented_head level v h more
    rw [skipBlanks_gap (skipBlanks_newline level), hbody] at heq
    exact hb (List.cons.inj heq).1
  cases items with
  | nil =>
    rw [encodeChars_indentedItem, List.append_assoc]
    exact hhead rest
  | cons w items =>
    rw [encodeChars_indentedItems, List.append_assoc, List.append_assoc]
    exact hhead _

theorem skipBlanks_indentedMembers (level : Nat) (m : String × Value) (members : List (String × Value))
    (rest r : Bytes) :
    skipBlanks (Utf8.encodeChars (indentedMembers level (m :: members)) ++ rest) ≠ closeBrace :: r := by
  obtain ⟨key, v⟩ := m
  cases members with
  | nil =>
    rw [encodeChars_indentedMember, List.append_assoc, skipBlanks_gap (skipBlanks_newline level), encodeChars_quoted]
    intro heq
    cases (List.cons.inj heq).1
  | cons m members =>
    rw [encodeChars_indentedMembers, List.append_assoc, skipBlanks_gap (skipBlanks_newline level),
      encodeChars_quoted]
    intro heq
    cases (List.cons.inj heq).1

/-- The value, as a person reads it, is read in front of whatever may follow it. -/
def ReadsIndented (v : Value) : Prop :=
  ∀ level fuel, 2 * (Utf8.encodeChars (indentedChars level v)).length ≤ fuel → ∀ rest, Stops rest →
    ∃ gap, skipBlanks gap = [] ∧
      parseValue fuel (Utf8.encodeChars (indentedChars level v) ++ rest) = some (v.written, gap ++ rest)

/-- What has nothing inside is written alike in both forms. -/
theorem ReadsCompact.readsIndented {v : Value} (h : ReadsCompact v)
    (hsame : ∀ level, indentedChars level v = v.compactChars) : ReadsIndented v := by
  intro level
  rw [hsame]
  exact h

theorem parseItems_indented (level outer : Nat) {items : List Value} (hne : items ≠ [])
    (hitems : ∀ v ∈ items, ReadsIndented v) (fuel : Nat)
    (hfuel : 2 * (Utf8.encodeChars (indentedItems level items)).length + 1 ≤ fuel) (rest : Bytes) :
    parseItems fuel (Utf8.encodeChars (indentedItems level items) ++
        (Utf8.encodeChars (newline outer) ++ closeBracket :: rest)) =
      some (items.map Value.written, rest) := by
  induction items generalizing fuel with
  | nil => exact absurd rfl hne
  | cons v items ih =>
    obtain ⟨fuel, rfl⟩ : ∃ f, fuel = f + 1 := ⟨fuel - 1, by omega⟩
    have hv := hitems v List.mem_cons_self level fuel
    cases items with
    | nil =>
      rw [encodeChars_indentedItem, List.length_append] at hfuel
      rw [encodeChars_indentedItem, List.append_assoc, parseItems_gap (skipBlanks_newline level)]
      obtain ⟨gap, hgap, hvalue⟩ := hv (by omega) _ (stops_newline outer (closeBracket :: rest))
      refine parseItems_last hvalue ?_
      rw [skipBlanks_gap hgap, skipBlanks_gap (skipBlanks_newline outer), skipBlanks_cons (by decide)]
    | cons w items =>
      rw [encodeChars_indentedItems, List.length_append, List.length_append, List.length_cons] at hfuel
      rw [encodeChars_indentedItems, List.append_assoc, List.append_assoc, List.cons_append,
        parseItems_gap (skipBlanks_newline level)]
      obtain ⟨gap, hgap, hvalue⟩ := hv (by omega)
        (comma :: (Utf8.encodeChars (indentedItems level (w :: items)) ++
          (Utf8.encodeChars (newline outer) ++ closeBracket :: rest))) (.inl rfl)
      refine parseItems_more hvalue ?_ (ih (List.cons_ne_nil _ _) ?_ fuel (by omega))
      · rw [skipBlanks_gap hgap, skipBlanks_cons (by decide)]
      · exact fun u hu => hitems u (List.mem_cons_of_mem _ hu)

theorem parseMembers_indented (level outer : Nat) {members : List (String × Value)} (hne : members ≠ [])
    (hmembers : ∀ m ∈ members, ReadsIndented m.2) (fuel : Nat)
    (hfuel : 2 * (Utf8.encodeChars (indentedMembers level members)).length + 1 ≤ fuel) (rest : Bytes) :
    parseMembers fuel (Utf8.encodeChars (indentedMembers level members) ++
        (Utf8.encodeChars (newline outer) ++ closeBrace :: rest)) =
      some (members.map fun m => (some m.1, m.2.written), rest) := by
  induction members generalizing fuel with
  | nil => exact absurd rfl hne
  | cons m members ih =>
    obtain ⟨key, v⟩ := m
    obtain ⟨fuel, rfl⟩ : ∃ f, fuel = f + 1 := ⟨fuel - 1, by omega⟩
    have hv := hmembers (key, v) List.mem_cons_self level fuel
    -- behind the colon there is a blank, too
    have hblank : ∀ input, parseValue fuel (0x20 :: input) = parseValue fuel input :=
      @parseValue_gap [0x20] rfl fuel
    cases members with
    | nil =>
      rw [encodeChars_indentedMember, List.length_append, List.length_append, List.length_cons,
        List.length_cons] at hfuel
      rw [encodeChars_indentedMember, List.append_assoc, List.append_assoc, List.cons_append, List.cons_append,
        parseMembers_gap (skipBlanks_newline level)]
      obtain ⟨gap, hgap, hvalue⟩ := hv (by dsimp only; omega) _ (stops_newline outer (closeBrace :: rest))
      refine parseMembers_last key ((hblank _).trans hvalue) ?_
      rw [skipBlanks_gap hgap, skipBlanks_gap (skipBlanks_newline outer), skipBlanks_cons (by decide)]
    | cons m members =>
      rw [encodeChars_indentedMembers, List.length_append, List.length_append, List.length_cons,
        List.length_cons, List.length_append, List.length_cons] at hfuel
      rw [encodeChars_indentedMembers, List.append_assoc, List.append_assoc, List.cons_append,
        List.cons_append, List.append_assoc, List.cons_append, parseMembers_gap (skipBlanks_newline level)]
      obtain ⟨gap, hgap, hvalue⟩ := hv (by dsimp only; omega)
        (comma :: (Utf8.encodeChars (indentedMembers level (m :: members)) ++
          (Utf8.encodeChars (newline outer) ++ closeBrace :: rest))) (.inl rfl)
      refine parseMembers_more key ((hblank _).trans hvalue) ?_ (ih (List.cons_ne_nil _ _) ?_ fuel (by omega))
      · rw [skipBlanks_gap hgap, skipBlanks_cons (by decide)]
      · exact fun n hn => hmembers n (List.mem_cons_of_mem _ hn)

theorem readsIndented (v : Value) (h : ∀ n ∈ v.numbers, n.ReadsBack) : ReadsIndented v := by
  induction v using Tree.induct with
  | null => exact (readsCompact _ h).readsIndented fun _ => rfl
  | bool b => exact (readsCompact _ h).readsIndented fun _ => rfl
  | number n => exact (readsCompact _ h).readsIndented fun _ => rfl
  | string s => exact (readsCompact _ h).readsIndented fun _ => rfl
  | array items ih =>
    cases items with
    | nil => exact (readsCompact _ h).readsIndented fun _ => rfl
    | cons v items =>
      have hitems : ∀ w ∈ v :: items, ∀ n ∈ w.numbers, n.ReadsBack :=
        fun w hw n hn => h n (Tree.mem_numbers_array.2 ⟨w, hw, hn⟩)
      intro level fuel hfuel rest _
      rw [encodeChars_indentedArray, List.length_cons, List.length_append, List.length_append] at hfuel
      obtain ⟨fuel, rfl⟩ : ∃ f, fuel = f + 1 := ⟨fuel - 1, by omega⟩
      refine ⟨[], rfl, ?_⟩
      rw [encodeChars_indentedArray, List.cons_append, List.append_assoc, List.append_assoc,
        List.singleton_append, Value.written_array]
      refine parseValue_array (skipBlanks_indentedItems (level + 1) v items (hitems v List.mem_cons_self) _) ?_
      refine parseItems_indented (level + 1) level (List.cons_ne_nil _ _) ?_ fuel (by omega) rest
      exact fun w hw => ih w hw (hitems w hw)
  | object members ih =>
    cases members with
    | nil => exact (readsCompact _ h).readsIndented fun _ => rfl
    | cons m members =>
      have hmembers : ∀ k ∈ m :: members, ∀ n ∈ k.2.numbers, n.ReadsBack :=
        fun k hk n hn => h n (Tree.mem_numbers_object.2 ⟨k, hk, hn⟩)
      intro level fuel hfuel rest _
      rw [encodeChars_indentedObject, List.length_cons, List.length_append, List.length_append] at hfuel
      obtain ⟨fuel, rfl⟩ : ∃ f, fuel = f + 1 := ⟨fuel - 1, by omega⟩
      refine ⟨[], rfl, ?_⟩
      rw [encodeChars_indentedObject, List.cons_append, List.append_assoc, List.append_assoc,
        List.singleton_append, Value.written_object]
      refine parseValue_object (skipBlanks_indentedMembers (level + 1) m members _) ?_
      refine parseMembers_indented (level + 1) level (List.cons_ne_nil _ _) ?_ fuel (by omega) rest
      exact fun k hk => ih k hk (hmembers k hk)

/-- **Parsing undoes the indented form as well**, as a line of its own. -/
theorem parse?_indented (v : Value) (h : ∀ n ∈ v.numbers, n.ReadsBack) :
    parse? (Utf8.encode (v.indented ++ "\n")) = some v.written := by
  have hencode : Utf8.encode (v.indented ++ "\n") = Utf8.encodeChars (indentedChars 0 v) ++ [0x0A] := by
    rw [Utf8.encode_eq, String.toList_append, Utf8.encodeChars_append, Value.indented, String.toList_ofList]
    rfl
  obtain ⟨gap, hgap, hvalue⟩ := readsIndented v h 0
    (2 * (Utf8.encodeChars (indentedChars 0 v) ++ [0x0A]).length + 2)
    (by rw [List.length_append]; omega) [0x0A] (.inr (.inr (.inr rfl)))
  rw [hencode, parse?, front?, hvalue]
  dsimp only
  rw [skipBlanks_gap hgap]
  rfl

end TerraformCloud.Json
