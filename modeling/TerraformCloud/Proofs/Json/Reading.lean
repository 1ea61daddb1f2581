/-
  TerraformCloud/Proofs/Json/Reading.lean
  =======================================
  **What is written compactly is read as it was.**

  The parser is followed over a compact text from left to right.  A value is read in
  front of whatever may follow one, an item in front of the rest of its list, a member
  in front of the rest of its object, and the fuel that the parser starts with is
  enough because every nested step has a byte of its own.  So parsing undoes writing
  (`parse?_compact`) wherever the numbers of the document read back.

  The numbers of a document that was read are known, too: its integers fit into a
  machine word (`wordIntegers_of_parse?`), so that only doubles may come back otherwise.
-/
import TerraformCloud.Proofs.Json.Numbers
import TerraformCloud.Proofs.Json.Strings

namespace TerraformCloud.Json

/-! ## 1. Steps of the parser -/

theorem skipBlanks_gap {gap : Bytes} (hgap : skipBlanks gap = []) (rest : Bytes) :
    skipBlanks (gap ++ rest) = skipBlanks rest := by
  rw [skipBlanks] at hgap ⊢
  rw [List.dropWhile_append, hgap, List.isEmpty_nil, if_pos rfl]
  rfl

section Steps

variable {fuel : Nat} {input rest rest' : Bytes}

theorem parseValue_string (s : String) :
    parseValue (fuel + 1) (Utf8.encodeChars (quoted s) ++ rest) = some (.string (some s), rest) := by
  rw [encodeChars_quoted, List.cons_append, List.append_assoc, List.singleton_append, parseValue]
  change (delimit? (escaped s ++ quote :: rest)).map (fun p => (Tree.string (text? p.1), p.2)) = _
  rw [delimit?_quoted, Option.map_some, text?_escaped]

theorem parseValue_openBracket :
    parseValue (fuel + 1) (openBracket :: input) =
      match skipBlanks input with
      | closeBracket :: r => some (.array [], r)
      | _ => (parseItems fuel input).map fun (p : List Written × Bytes) => (.array p.1, p.2) := by
  rw [parseValue]
  rfl

theorem parseValue_array {items : List Written} (hhead : ∀ r, skipBlanks input ≠ closeBracket :: r)
    (h : parseItems fuel input = some (items, rest)) :
    parseValue (fuel + 1) (openBracket :: input) = some (.array items, rest) := by
  rw [parseValue_openBracket]
  split
  · next heq => exact absurd heq (hhead _)
  · rw [h]
    rfl

theorem parseValue_openBrace :
    parseValue (fuel + 1) (openBrace :: input) =
      match skipBlanks input with
      | closeBrace :: r => some (.object [], r)
      | _ => (parseMembers fuel input).map
          fun (p : List (Option String × Written) × Bytes) => (.object p.1, p.2) := by
  rw [parseValue]
  rfl

theorem parseValue_object {members : List (Option String × Written)}
    (hhead : ∀ r, skipBlanks input ≠ closeBrace :: r)
    (h : parseMembers fuel input = some (members, rest)) :
    parseValue (fuel + 1) (openBrace :: input) = some (.object members, rest) := by
  rw [parseValue_openBrace]
  split
  · next heq => exact absurd heq (hhead _)
  · rw [h]
    rfl

theorem parseItems_last {item : Written} (h : parseValue fuel input = some (item, rest))
    (hrest : skipBlanks rest = closeBracket :: rest') :
    parseItems (fuel + 1) input = some ([item], rest') := by
  rw [parseItems, h]
  dsimp only
  rw [hrest]
  rfl

theorem parseItems_more {item : Written} {items : List Written} {more : Bytes}
    (h : parseValue fuel input = some (item, rest)) (hrest : skipBlanks rest = comma :: more)
    (hmore : parseItems fuel more = some (items, rest')) :
    parseItems (fuel + 1) input = some (item :: items, rest') := by
  rw [parseItems, h]
  dsimp only
  rw [hrest]
  change (parseItems fuel more).map (fun p => (item :: p.1, p.2)) = _
  rw [hmore]
  rfl

theorem parseMembers_quote :
    parseMembers (fuel + 1) (quote :: input) =
      match delimit? input with
      | none => none
      | some (key, afterKey) =>
        match skipBlanks afterKey with
        | colon :: r =>
          match parseValue fuel r with
          | none => none
          | some (value, r) =>
            match skipBlanks r with
            | comma :: r => (parseMembers fuel r).map
                fun (p : List (Option String × Written) × Bytes) => ((text? key, value) :: p.1, p.2)
            | closeBrace :: r => some ([(text? key, value)], r)
            | _ => none
        | _ => none := by
  rw [parseMembers]
  rfl

theorem parseMembers_key (key : String) :
    parseMembers (fuel + 1) (Utf8.encodeChars (quoted key) ++ colon :: input) =
      match parseValue fuel input with
      | none => none
      | some (value, r) =>
        match skipBlanks r with
        | comma :: r => (parseMembers fuel r).map
            fun (p : List (Option String × Written) × Bytes) => ((some key, value) :: p.1, p.2)
        | closeBrace :: r => some ([(some key, value)], r)
        | _ => none := by
  rw [encodeChars_quoted, List.cons_append, List.append_assoc, List.singleton_append, parseMembers_quote,
    delimit?_quoted, ← text?_escaped key]
  rfl

theorem parseMembers_last (key : String) {value : Written}
    (h : parseValue fuel input = some (value, rest)) (hrest : skipBlanks rest = closeBrace :: rest') :
    parseMembers (fuel + 1) (Utf8.encodeChars (quoted key) ++ colon :: input) =
      some ([(some key, value)], rest') := by
  rw [parseMembers_key, h]
  dsimp only
  rw [hrest]
  rfl

theorem parseMembers_more (key : String) {value : Written}
    {members : List (Option String × Written)} {more : Bytes}
    (h : parseValue fuel input = some (value, rest)) (hrest : skipBlanks rest = comma :: more)
    (hmore : parseMembers fuel more = some (members, rest')) :
    parseMembers (fuel + 1) (Utf8.encodeChars (quoted key) ++ colon :: input) =
      some ((some key, value) :: members, rest') := by
  rw [parseMembers_key, h]
  dsimp only
  rw [hrest]
  change (parseMembers fuel more).map (fun p => ((some key, value) :: p.1, p.2)) = _
  rw [hmore]
  rfl

end Steps

/-! ## 2. Reading what was written -/

/-- A value begins with a byte that ends no list. -/
theorem compact_head (v : Value) (h : ∀ n ∈ v.numbers, n.ReadsBack) (rest : Bytes) :
    ∃ b body, skipBlanks (Utf8.encodeChars v.compactChars ++ rest) = b :: body ∧ b ≠ closeBracket := by
  cases v with
  | null => exact ⟨0x6E, _, rfl, by decide⟩
  | bool b =>
    cases b with
    | false => exact ⟨0x66, _, rfl, by decide⟩
    | true => exact ⟨0x74, _, rfl, by decide⟩
  | number n =>
    obtain ⟨t, gap, hnumber, -⟩ := (Number.readsBack_iff n).1 (h n (by simp [Tree.numbers]))
    obtain ⟨b, body, hbody, hb⟩ := number?_head hnumber
    refine ⟨b, body ++ rest, ?_, ?_⟩
    · have hne : ¬ ((Utf8.encodeChars n.text).dropWhile isBlank).isEmpty = true := by
        rw [← skipBlanks, hbody]
        exact Bool.false_ne_true
      rw [Value.compactChars, skipBlanks, List.dropWhile_append, if_neg hne, ← skipBlanks, hbody]
      rfl
    · rintro rfl
      rcases hb with hb | hb <;> cases hb
  | string s =>
    rw [Value.compactChars, encodeChars_quoted]
    exact ⟨quote, _, rfl, by decide⟩
  | array items => exact ⟨openBracket, _, rfl, by decide⟩
  | object members => exact ⟨openBrace, _, rfl, by decide⟩

theorem compact_length_pos (v : Value) (h : ∀ n ∈ v.numbers, n.ReadsBack) :
    0 < (Utf8.encodeChars v.compactChars).length := by
  obtain ⟨b, body, hbody, -⟩ := compact_head v h []
  refine List.length_pos_of_ne_nil fun hnil => ?_
  rw [hnil] at hbody
  cases hbody

theorem encodeChars_array (items : List Value) :
    Utf8.encodeChars (Value.compactChars (.array items)) =
      openBracket :: (Utf8.encodeChars (Value.compactItems items) ++ [closeBracket]) := by
  rw [Value.compactChars, List.cons_append, Utf8.encodeChars_cons, Utf8.encodeChars_append]
  rfl

theorem encodeChars_object (members : List (String × Value)) :
    Utf8.encodeChars (Value.compactChars (.object members)) =
      openBrace :: (Utf8.encodeChars (Value.compactMembers members) ++ [closeBrace]) := by
  rw [Value.compactChars, List.cons_append, Utf8.encodeChars_cons, Utf8.encodeChars_append]
  rfl

theorem encodeChars_items (v w : Value) (items : List Value) :
    Utf8.encodeChars (Value.compactItems (v :: w :: items)) =
      Utf8.encodeChars v.compactChars ++
        comma :: Utf8.encodeChars (Value.compactItems (w :: items)) := by
  rw [Value.compactItems, Utf8.encodeChars_append, Utf8.encodeChars_cons]
  · rfl
  · exact List.cons_ne_nil _ _

theorem encodeChars_member (key : String) (v : Value) :
    Utf8.encodeChars (Value.compactMembers [(key, v)]) =
      Utf8.encodeChars (quoted key) ++ colon :: Utf8.encodeChars v.compactChars := by
  rw [Value.compactMembers, Utf8.encodeChars_append, Utf8.encodeChars_cons]
  rfl

theorem encodeChars_members (key : String) (v : Value) (m : String × Value)
    (members : List (String × Value)) :
    Utf8.encodeChars (Value.compactMembers ((key, v) :: m :: members)) =
      Utf8.encodeChars (quoted key) ++ colon :: (Utf8.encodeChars v.compactChars ++
        comma :: Utf8.encodeChars (Value.compactMembers (m :: members))) := by
  rw [Value.compactMembers, Utf8.encodeChars_append, Utf8.encodeChars_append,
    Utf8.encodeChars_cons, Utf8.encodeChars_cons, List.append_assoc]
  · rfl
  · exact List.cons_ne_nil _ _

theorem skipBlanks_members (m : String × Value) (members : List (String × Value)) (rest r : Bytes) :
    skipBlanks (Utf8.encodeChars (Value.compactMembers (m :: members)) ++ rest) ≠
      closeBrace :: r := by
  obtain ⟨key, v⟩ := m
  cases members with
  | nil =>
    rw [encodeChars_member, encodeChars_quoted]
    intro heq
    cases (List.cons.inj heq).1
  | cons m members =>
    rw [encodeChars_members, encodeChars_quoted]
    intro heq
    cases (List.cons.inj heq).1

theorem skipBlanks_items (v : Value) (items : List Value) (h : ∀ n ∈ v.numbers, n.ReadsBack)
    (rest r : Bytes) :
    skipBlanks (Utf8.encodeChars (Value.compactItems (v :: items)) ++ rest) ≠ closeBracket :: r := by
  have hhead : ∀ more, skipBlanks (Utf8.encodeChars v.compactChars ++ more) ≠ closeBracket :: r := by
    intro more heq
    obtain ⟨b, body, hbody, hb⟩ := compact_head v h more
    rw [hbody] at heq
    exact hb (List.cons.inj heq).1
  cases items with
  | nil => exact hhead rest
  | cons w items =>
    rw [encodeChars_items, List.append_assoc]
    exact hhead _

/-- The value is read in front of whatever may follow it. -/
def ReadsCompact (v : Value) : Prop :=
  ∀ fuel, 2 * (Utf8.encodeChars v.compactChars).length ≤ fuel → ∀ rest, Stops rest →
    ∃ gap, skipBlanks gap = [] ∧
      parseValue fuel (Utf8.encodeChars v.compactChars ++ rest) = some (v.written, gap ++ rest)

theorem parseItems_compact {items : List Value} (hne : items ≠ [])
    (hitems : ∀ v ∈ items, ReadsCompact v) (fuel : Nat)
    (hfuel : 2 * (Utf8.encodeChars (Value.compactItems items)).length + 1 ≤ fuel) (rest : Bytes) :
    parseItems fuel (Utf8.encodeChars (Value.compactItems items) ++ closeBracket :: rest) =
      some (items.map Value.written, rest) := by
  induction items generalizing fuel with
  | nil => exact absurd rfl hne
  | cons v items ih =>
    obtain ⟨fuel, rfl⟩ : ∃ f, fuel = f + 1 := ⟨fuel - 1, by omega⟩
    have hv := hitems v List.mem_cons_self
    cases items with
    | nil =>
      rw [Value.compactItems] at hfuel ⊢
      obtain ⟨gap, hgap, hvalue⟩ := hv fuel (by omega) (closeBracket :: rest) (.inr (.inl rfl))
      refine parseItems_last hvalue ?_
      rw [skipBlanks_gap hgap, skipBlanks_cons (by decide)]
    | cons w items =>
      -- the comma stops the first item, and one step of the fuel is spent on it
      rw [encodeChars_items, List.length_append, List.length_cons] at hfuel
      rw [encodeChars_items, List.append_assoc, List.cons_append]
      obtain ⟨gap, hgap, hvalue⟩ := hv fuel (by omega)
        (comma :: (Utf8.encodeChars (Value.compactItems (w :: items)) ++ closeBracket :: rest))
        (.inl rfl)
      refine parseItems_more hvalue ?_ (ih (List.cons_ne_nil _ _) ?_ fuel (by omega))
      · rw [skipBlanks_gap hgap, skipBlanks_cons (by decide)]
      · exact fun u hu => hitems u (List.mem_cons_of_mem _ hu)

theorem parseMembers_compact {members : List (String × Value)} (hne : members ≠ [])
    (hmembers : ∀ m ∈ members, ReadsCompact m.2) (fuel : Nat)
    (hfuel : 2 * (Utf8.encodeChars (Value.compactMembers members)).length + 1 ≤ fuel) (rest : Bytes) :
    parseMembers fuel (Utf8.encodeChars (Value.compactMembers members) ++ closeBrace :: rest) =
      some (members.map fun m => (some m.1, m.2.written), rest) := by
  induction members generalizing fuel with
  | nil => exact absurd rfl hne
  | cons m members ih =>
    obtain ⟨key, v⟩ := m
    obtain ⟨fuel, rfl⟩ : ∃ f, fuel = f + 1 := ⟨fuel - 1, by omega⟩
    have hv := hmembers (key, v) List.mem_cons_self
    cases members with
    | nil =>
      rw [encodeChars_member, List.length_append, List.length_cons] at hfuel
      rw [encodeChars_member, List.append_assoc, List.cons_append]
      obtain ⟨gap, hgap, hvalue⟩ := hv fuel (by dsimp only; omega) (closeBrace :: rest)
        (.inr (.inr (.inl rfl)))
      refine parseMembers_last key hvalue ?_
      rw [skipBlanks_gap hgap, skipBlanks_cons (by decide)]
    | cons m members =>
      rw [encodeChars_members, List.length_append, List.length_cons, List.length_append,
        List.length_cons] at hfuel
      rw [encodeChars_members, List.append_assoc, List.cons_append, List.append_assoc,
        List.cons_append]
      obtain ⟨gap, hgap, hvalue⟩ := hv fuel (by dsimp only; omega)
        (comma :: (Utf8.encodeChars (Value.compactMembers (m :: members)) ++ closeBrace :: rest))
        (.inl rfl)
      refine parseMembers_more key hvalue ?_ (ih (List.cons_ne_nil _ _) ?_ fuel (by omega))
      · rw [skipBlanks_gap hgap, skipBlanks_cons (by decide)]
      · exact fun n hn => hmembers n (List.mem_cons_of_mem _ hn)

/-- A value has a byte, so there is fuel for the first step. -/
theorem readsCompact_of_step {v : Value} (h : ∀ n ∈ v.numbers, n.ReadsBack)
    (hstep : ∀ fuel, 2 * (Utf8.encodeChars v.compactChars).length ≤ fuel + 1 → ∀ rest, Stops rest →
      ∃ gap, skipBlanks gap = [] ∧
        parseValue (fuel + 1) (Utf8.encodeChars v.compactChars ++ rest) =
          some (v.written, gap ++ rest)) : ReadsCompact v := by
  intro fuel hfuel
  have hpos := compact_length_pos v h
  obtain ⟨fuel, rfl⟩ : ∃ f, fuel = f + 1 := ⟨fuel - 1, by omega⟩
  exact hstep fuel hfuel

theorem readsCompact (v : Value) (h : ∀ n ∈ v.numbers, n.ReadsBack) : ReadsCompact v := by
  induction v using Tree.induct with
  | null => exact readsCompact_of_step h fun fuel _ rest _ => ⟨[], rfl, by rw [parseValue]; rfl⟩
  | bool b =>
    refine readsCompact_of_step h fun fuel _ rest _ => ⟨[], rfl, ?_⟩
    cases b <;> (rw [parseValue]; rfl)
  | number n =>
    refine readsCompact_of_step h fun fuel _ rest hrest => ?_
    rw [Value.compactChars]
    exact parseValue_of_readsBack (h n (by simp [Tree.numbers])) hrest fuel
  | string s =>
    refine readsCompact_of_step h fun fuel _ rest _ => ⟨[], rfl, ?_⟩
    rw [Value.compactChars]
    exact parseValue_string s
  | array items ih =>
    have hitems : ∀ v ∈ items, ∀ n ∈ v.numbers, n.ReadsBack :=
      fun v hv n hn => h n (Tree.mem_numbers_array.2 ⟨v, hv, hn⟩)
    refine readsCompact_of_step h fun fuel hfuel rest _ => ⟨[], rfl, ?_⟩
    cases items with
    | nil => rw [parseValue]; rfl
    | cons v items =>
      -- the two brackets are worth the fuel of the step inside
      rw [encodeChars_array, List.length_cons, List.length_append] at hfuel
      rw [encodeChars_array, List.cons_append, List.append_assoc, List.singleton_append,
        Value.written_array]
      refine parseValue_array (skipBlanks_items v items (hitems v List.mem_cons_self) _) ?_
      refine parseItems_compact (List.cons_ne_nil _ _) ?_ fuel (by omega) rest
      exact fun w hw => ih w hw (hitems w hw)
  | object members ih =>
    have hmembers : ∀ m ∈ members, ∀ n ∈ m.2.numbers, n.ReadsBack :=
      fun m hm n hn => h n (Tree.mem_numbers_object.2 ⟨m, hm, hn⟩)
    refine readsCompact_of_step h fun fuel hfuel rest _ => ⟨[], rfl, ?_⟩
    cases members with
    | nil => rw [parseValue]; rfl
    | cons m members =>
      rw [encodeChars_object, List.length_cons, List.length_append] at hfuel
      rw [encodeChars_object, List.cons_append, List.append_assoc, List.singleton_append,
        Value.written_object]
      refine parseValue_object (skipBlanks_members m members _) ?_
      refine parseMembers_compact (List.cons_ne_nil _ _) ?_ fuel (by omega) rest
      exact fun k hk => ih k hk (hmembers k hk)

/-- **Parsing undoes writing**, wherever the numbers of the document read back. -/
theorem parse?_compact (v : Value) (h : ∀ n ∈ v.numbers, n.ReadsBack) :
    parse? (Utf8.encode v.compact) = some v.written := by
  obtain ⟨gap, hgap, hvalue⟩ := readsCompact v h
    (2 * (Utf8.encodeChars v.compactChars).length + 2) (by omega) [] trivial
  rw [List.append_nil, List.append_nil] at hvalue
  rw [encode_compact, parse?, front?, hvalue]
  dsimp only
  rw [hgap]
  rfl

/-- The first of several members is read as it was, whatever becomes of the others. -/
theorem parse?_compact_cons {key : String} {v : Value} {m : String × Value}
    {members : List (String × Value)} {w : Written} (h : ∀ n ∈ v.numbers, n.ReadsBack)
    (hparse : parse? (Utf8.encode (Value.compact (.object ((key, v) :: m :: members)))) = some w) :
    ∃ more, w = .object ((some key, v.written) :: more) := by
  -- the length is all there is to say about the fuel, and it covers the first value
  have hlength := congrArg List.length (encodeChars_object ((key, v) :: m :: members))
  rw [List.length_cons, List.length_append, encodeChars_members, List.length_append, List.length_cons,
    List.length_append] at hlength
  obtain ⟨fuel, hfuel⟩ : ∃ f, 2 * (Utf8.encodeChars
      (Value.compactChars (.object ((key, v) :: m :: members)))).length + 2 = f + 2 := ⟨_, rfl⟩
  rw [encode_compact, parse?, front?, hfuel, encodeChars_object, parseValue_openBrace] at hparse
  split at hparse
  · next heq =>
    split at heq
    · next hempty => exact absurd hempty (skipBlanks_members (key, v) (m :: members) _ _)
    · obtain ⟨⟨found, r⟩, hfound, hw⟩ := Option.map_eq_some_iff.1 heq
      obtain ⟨gap, hgap, hvalue⟩ := readsCompact v h fuel (by omega)
        (comma :: (Utf8.encodeChars (Value.compactMembers (m :: members)) ++ [closeBrace])) (.inl rfl)
      rw [encodeChars_members, List.append_assoc, List.cons_append, List.append_assoc,
        List.cons_append, parseMembers_key, hvalue] at hfound
      dsimp only at hfound
      rw [skipBlanks_gap hgap, skipBlanks_cons (by decide)] at hfound
      obtain ⟨⟨more, r'⟩, -, hmore⟩ := Option.map_eq_some_iff.1 hfound
      cases hmore
      cases hw
      split at hparse
      · cases hparse
        exact ⟨more, rfl⟩
      · cases hparse
  · cases hparse

/-! ## 3. The integers of what was read -/

/-- Every integer of the document fits into a machine word. -/
def WordIntegers (w : Written) : Prop := ∀ n, some (.integer n) ∈ w.numbers → Number.FitsWord n

theorem wordIntegers_array {items : List Written} (h : ∀ w ∈ items, WordIntegers w) :
    WordIntegers (.array items) := by
  intro n hn
  obtain ⟨w, hw, hn⟩ := Tree.mem_numbers_array.1 hn
  exact h w hw n hn

theorem wordIntegers_object {members : List (Option String × Written)}
    (h : ∀ m ∈ members, WordIntegers m.2) : WordIntegers (.object members) := by
  intro n hn
  obtain ⟨m, hm, hn⟩ := Tree.mem_numbers_object.1 hn
  exact h m hm n hn

section Invariant

variable {fuel : Nat}

/-- Integers of items fit, if those of values do that are read with less fuel. -/
theorem wordIntegers_items
    (hvalue : ∀ {input w r}, parseValue fuel input = some (w, r) → WordIntegers w)
    (hitems : ∀ {input items r}, parseItems fuel input = some (items, r) →
      ∀ w ∈ items, WordIntegers w)
    {input : Bytes} {items : List Written} {rest : Bytes}
    (h : parseItems (fuel + 1) input = some (items, rest)) : ∀ w ∈ items, WordIntegers w := by
  rw [parseItems] at h
  split at h
  · cases h
  · next heq =>
    split at h
    · obtain ⟨⟨more, r⟩, hmore, heq'⟩ := Option.map_eq_some_iff.1 h
      cases heq'
      exact List.forall_mem_cons.2 ⟨hvalue heq, hitems hmore⟩
    · cases h
      exact List.forall_mem_singleton.2 (hvalue heq)
    · cases h

theorem wordIntegers_members
    (hvalue : ∀ {input w r}, parseValue fuel input = some (w, r) → WordIntegers w)
    (hmembers : ∀ {input members r}, parseMembers fuel input = some (members, r) →
      ∀ m ∈ members, WordIntegers m.2)
    {input : Bytes} {members : List (Option String × Written)} {rest : Bytes}
    (h : parseMembers (fuel + 1) input = some (members, rest)) :
    ∀ m ∈ members, WordIntegers m.2 := by
  rw [parseMembers] at h
  split at h
  · split at h
    · cases h
    · split at h
      · split at h
        · cases h
        · next heq =>
          split at h
          · obtain ⟨⟨more, r⟩, hmore, heq'⟩ := Option.map_eq_some_iff.1 h
            cases heq'
            exact List.forall_mem_cons.2 ⟨hvalue heq, hmembers hmore⟩
          · cases h
            exact List.forall_mem_singleton.2 (hvalue heq)
          · cases h
      · cases h
  · cases h

end Invariant

/-- The induction is on the fuel, for values, items and members at once. -/
theorem wordIntegers_parsers (fuel : Nat) :
    (∀ {input w r}, parseValue fuel input = some (w, r) → WordIntegers w) ∧
    (∀ {input items r}, parseItems fuel input = some (items, r) → ∀ w ∈ items, WordIntegers w) ∧
    (∀ {input members r}, parseMembers fuel input = some (members, r) →
      ∀ m ∈ members, WordIntegers m.2) := by
  induction fuel with
  | zero =>
    refine ⟨?_, ?_, ?_⟩ <;> intro input found r h
    · rw [parseValue] at h; cases h
    · rw [parseItems] at h; cases h
    · rw [parseMembers] at h; cases h
  | succ fuel ih =>
    obtain ⟨hvalue, hitems, hmembers⟩ := ih
    refine ⟨?_, wordIntegers_items hvalue hitems, wordIntegers_members hvalue hmembers⟩
    intro input w r h
    rcases parseValue_cases h with hnone | ⟨t, -, rfl⟩ | ⟨f, body, items, hf, hread, rfl⟩ |
      ⟨f, body, members, hf, hread, rfl⟩
    · intro n hn
      rw [hnone] at hn
      cases hn
    · intro n hn
      rw [Tree.numbers, List.mem_singleton] at hn
      exact Number.fitsWord_of_ofText? hn.symm
    · cases hf
      exact wordIntegers_array (hitems hread)
    · cases hf
      exact wordIntegers_object (hmembers hread)

/-- **Only integers of a machine word are read.** -/
theorem wordIntegers_of_parse? {input : Bytes} {w : Written} (h : parse? input = some w) :
    WordIntegers w := by
  rw [parse?, front?] at h
  split at h
  · next heq =>
    split at h
    · cases h
      exact (wordIntegers_parsers _).1 heq
    · cases h
  · cases h

end TerraformCloud.Json
