/-
  TerraformCloud/Proofs/Query/Canonical.lean
  ==========================================
  **Queries lose nothing, and are written in one way.**

  Parameters come together step by step: a value is added, or all values of another
  query are (`Assembly`).  Who reads the query as any other program would, cutting it
  at `&` and each pair at its first `=`, finds the keys in the order of their bytes
  and below each key its values in the order they were added (`parse?_encode_query`).

  Three facts carry this:

    * a key never has an empty list of values (`find?_query`), so no key is silent;
    * escaping leaves no separator (`amp_not_mem_pair`, `eq_not_mem_encode`), so a
      pair is cut where it was put together;
    * the order of texts is the order of their bytes.
-/
import TerraformCloud.Proofs.Keyed
import TerraformCloud.Proofs.Lists
import TerraformCloud.Proofs.Text.Order
import TerraformCloud.Proofs.Text.Percent
import TerraformCloud.Query

namespace TerraformCloud.Query

/-! ## 1. How parameters come together -/

/-- The steps that a query was put together by. -/
inductive Assembly where
  | empty
  | append (before : Assembly) (key value : String)
  | extend (before other : Assembly)

namespace Assembly

def query : Assembly → Query
  | empty => .empty
  | append before key value => before.query.append key value
  | extend before other => before.query.extend other.query

/-- The parameters in the order they were added. -/
def added : Assembly → List (String × String)
  | empty => []
  | append before key value => before.added ++ [(key, value)]
  | extend before other => before.added ++ other.added

end Assembly

/-- The values of a key among parameters, in their order. -/
def valuesOf (key : String) (parameters : List (String × String)) : List String :=
  (parameters.filter (fun p => p.1 = key)).map (·.2)

/-- The values of a key; none, where nothing was stored. -/
def valuesAt (q : Query) (key : String) : List String := (q.find? key).getD []

theorem valuesOf_append (key : String) (front back : List (String × String)) :
    valuesOf key (front ++ back) = valuesOf key front ++ valuesOf key back := by
  rw [valuesOf, List.filter_append, List.map_append]
  rfl

theorem valuesOf_singleton (key k value : String) :
    valuesOf key [(k, value)] = if k = key then [value] else [] := by
  by_cases h : k = key
  · rw [if_pos h, valuesOf, List.filter_cons_of_pos (by simpa using h)]
    rfl
  · rw [if_neg h, valuesOf, List.filter_cons_of_neg (by simpa using h)]
    rfl

theorem valuesOf_ne_nil_iff {key : String} {parameters : List (String × String)} :
    valuesOf key parameters ≠ [] ↔ ∃ value, (key, value) ∈ parameters := by
  constructor
  · intro h
    obtain ⟨value, hvalue⟩ := List.exists_mem_of_ne_nil _ h
    obtain ⟨⟨k, v⟩, hmem, -⟩ := List.mem_map.1 hvalue
    obtain ⟨hmem, hkey⟩ := List.mem_filter.1 hmem
    have hkey : k = key := by simpa using hkey
    exact ⟨v, hkey ▸ hmem⟩
  · rintro ⟨value, hmem⟩
    have hvalue : value ∈ valuesOf key parameters :=
      List.mem_map.2 ⟨(key, value), List.mem_filter.2 ⟨hmem, decide_eq_true rfl⟩, rfl⟩
    exact List.ne_nil_of_mem hvalue

/-- Where each entry gives parameters with its own key, those of a key come from its entries. -/
theorem valuesOf_flatMap {ε : Type} {entries : List (String × ε)}
    {give : String × ε → List (String × String)} (h : ∀ e ∈ entries, ∀ p ∈ give e, p.1 = e.1)
    (key : String) :
    valuesOf key (entries.flatMap give) =
      (entries.filter fun e => e.1 = key).flatMap fun e => (give e).map (·.2) := by
  induction entries with
  | nil => rfl
  | cons e entries ih =>
    have hfirst := h e List.mem_cons_self
    rw [List.flatMap_cons, valuesOf_append, ih fun d hd => h d (List.mem_cons_of_mem _ hd), valuesOf]
    by_cases heq : e.1 = key
    · rw [List.filter_cons_of_pos (by simpa using heq), List.flatMap_cons, List.filter_eq_self.2]
      intro p hp
      simpa using (hfirst p hp).trans heq
    · rw [List.filter_cons_of_neg (by simpa using heq), List.filter_eq_nil_iff.2]
      · rfl
      · intro p hp
        rw [hfirst p hp]
        simpa using heq

/-! ## 2. What is stored -/

/-- No key has an empty list of values. -/
def Solid (q : Query) : Prop := ∀ key, q.find? key ≠ some []

theorem valuesAt_append (q : Query) (k value key : String) :
    valuesAt (q.append k value) key = valuesAt q key ++ (if k = key then [value] else []) := by
  by_cases h : key = k
  · subst h
    simp [valuesAt, append]
  · simp [valuesAt, append, h, Ne.symm h]

theorem valuesAt_appendAll (q : Query) (k : String) (values : List String) (key : String) :
    valuesAt (q.appendAll k values) key = valuesAt q key ++ (if k = key then values else []) := by
  by_cases h : key = k
  · subst h
    simp [valuesAt, appendAll]
  · simp [valuesAt, appendAll, h, Ne.symm h]

theorem solid_append {q : Query} (h : Solid q) (k value : String) : Solid (q.append k value) := by
  intro key
  rw [append, Keyed.find?_alter]
  split
  · simp
  · exact h key

theorem solid_appendAll {q : Query} (h : Solid q) (k : String) {values : List String}
    (hne : values ≠ []) : Solid (q.appendAll k values) := by
  intro key
  rw [appendAll, Keyed.find?_alter]
  split
  · simp [hne]
  · exact h key

section Extend

variable {entries : List (String × List String)}

/-- Entry by entry, values come behind those that are there. -/
theorem valuesAt_foldl_appendAll (q : Query) (key : String) :
    valuesAt (entries.foldl (fun acc e => acc.appendAll e.1 e.2) q) key =
      valuesAt q key ++ (entries.filter (fun e => e.1 = key)).flatMap (·.2) := by
  induction entries generalizing q with
  | nil => simp
  | cons e entries ih =>
    rw [List.foldl_cons, ih, valuesAt_appendAll]
    by_cases h : e.1 = key
    · rw [if_pos h, List.filter_cons_of_pos (by simpa using h), List.flatMap_cons, List.append_assoc]
    · rw [if_neg h, List.filter_cons_of_neg (by simpa using h), List.append_nil]

theorem solid_foldl_appendAll {q : Query} (h : Solid q) (hne : ∀ e ∈ entries, e.2 ≠ []) :
    Solid (entries.foldl (fun acc e => acc.appendAll e.1 e.2) q) := by
  induction entries generalizing q with
  | nil => exact h
  | cons e entries ih =>
    rw [List.foldl_cons]
    refine ih (solid_appendAll h e.1 (hne e List.mem_cons_self)) ?_
    exact fun d hd => hne d (List.mem_cons_of_mem _ hd)

end Extend

theorem valuesAt_extend (q other : Query) (key : String) :
    valuesAt (q.extend other) key = valuesAt q key ++ valuesAt other key := by
  rw [extend, valuesAt_foldl_appendAll, Keyed.filter_entries]
  cases h : other.find? key with
  | none => simp [valuesAt, h]
  | some values => simp [valuesAt, h]

theorem solid_extend {q other : Query} (hq : Solid q) (hother : Solid other) :
    Solid (q.extend other) := by
  refine solid_foldl_appendAll hq ?_
  rintro ⟨k, values⟩ hmem rfl
  exact hother k ((Keyed.mem_entries_iff other k []).1 hmem)

theorem solid_query (a : Assembly) : Solid a.query := by
  induction a with
  | empty =>
    intro key h
    cases h
  | append before key value ih => exact solid_append ih key value
  | extend before other ihb iho => exact solid_extend ihb iho

theorem valuesAt_query (a : Assembly) (key : String) :
    valuesAt a.query key = valuesOf key a.added := by
  induction a with
  | empty => rfl
  | append before k value ih =>
    rw [Assembly.added, valuesOf_append, valuesOf_singleton, Assembly.query, valuesAt_append, ih]
  | extend before other ihb iho =>
    rw [Assembly.added, valuesOf_append, Assembly.query, valuesAt_extend, ihb, iho]

theorem Solid.find?_eq_some_iff {q : Query} (h : Solid q) {key : String} {values : List String} :
    q.find? key = some values ↔ values = valuesAt q key ∧ values ≠ [] := by
  rw [valuesAt]
  cases hfound : q.find? key with
  | none =>
    constructor
    · intro hsome
      cases hsome
    · rintro ⟨rfl, hne⟩
      exact absurd rfl hne
  | some found =>
    have hne : found ≠ [] := fun hnil => h key (hnil ▸ hfound)
    constructor
    · intro hsome
      cases hsome
      exact ⟨rfl, hne⟩
    · rintro ⟨rfl, -⟩
      rfl

/-- **A query is determined by the values of its keys.** -/
theorem eq_of_valuesAt {q q' : Query} (h : Solid q) (h' : Solid q')
    (heq : ∀ key, valuesAt q key = valuesAt q' key) : q = q' := by
  refine Keyed.eq_of_find?_eq fun key => Option.ext fun values => ?_
  rw [h.find?_eq_some_iff, h'.find?_eq_some_iff, heq]

/-- **A key has the values that were added under it, and is there only with a value.** -/
theorem find?_query (a : Assembly) (key : String) (values : List String) :
    a.query.find? key = some values ↔ values = valuesOf key a.added ∧ values ≠ [] := by
  rw [(solid_query a).find?_eq_some_iff, valuesAt_query]

theorem mem_keys_query (a : Assembly) (key : String) :
    key ∈ a.query.keys ↔ ∃ value, (key, value) ∈ a.added := by
  rw [Keyed.mem_keys_iff, Option.isSome_iff_exists, ← valuesOf_ne_nil_iff]
  constructor
  · rintro ⟨values, hvalues⟩
    obtain ⟨rfl, hne⟩ := (find?_query a key values).1 hvalues
    exact hne
  · intro hne
    exact ⟨_, (find?_query a key _).2 ⟨rfl, hne⟩⟩

/-! ## 3. What is sent -/

theorem occursIn_iff (part text : List Char) : occursIn part text = true ↔ part <:+: text := by
  induction text with
  | nil => rw [occursIn, List.isEmpty_iff, List.infix_nil]
  | cons c text ih =>
    rw [occursIn, Bool.or_eq_true, List.isPrefixOf_iff_prefix, ih, List.infix_cons_iff]

/-- The pairs that a key with these values sends. -/
def sent (key : String) (values : List String) : List (String × String) :=
  if 1 < values.length ∧ (key = "include" ∨ "filter[".toList <:+: key.toList) then
    [(key, ",".intercalate values)]
  else values.map (key, ·)

theorem isListKey_iff (key : String) :
    isListKey key = true ↔ key = "include" ∨ "filter[".toList <:+: key.toList := by
  rw [isListKey, Bool.or_eq_true, decide_eq_true_iff, occursIn_iff]
  rfl

theorem pairs_eq (key : String) (values : List String) :
    pairs key values = (sent key values).map fun p => pair p.1 p.2 := by
  simp only [pairs, sent, isListKey_iff]
  split
  · rfl
  · rw [List.map_map]
    rfl

theorem sent_ne_nil {key : String} {values : List String} (h : values ≠ []) :
    sent key values ≠ [] := by
  rw [sent]
  split
  · exact List.cons_ne_nil _ _
  · simpa using h

/-! ## 4. Reading a query -/

/-- One pair, cut at its first `=`, with both sides unescaped. -/
def parsePair? (piece : List Char) : Option (String × String) :=
  let beforeEq := piece.takeWhile (· ≠ '=')
  let behindEq := (piece.dropWhile (· ≠ '=')).drop 1
  match Percent.decode? (.ofList beforeEq), Percent.decode? (.ofList behindEq) with
  | some key, some value => some (key, value)
  | _, _ => none

/-- The pairs of a query, cut at each `&`; an empty piece is none. -/
def parse? (text : String) : Option (List (String × String)) :=
  ((splitChars '&' text.toList).filter (fun piece => !piece.isEmpty)).mapM parsePair?

theorem eq_not_mem_encode (s : String) : '=' ∉ (Percent.encode s).toList :=
  Percent.not_mem_encode (by decide) (by decide) s

theorem toList_pair (key value : String) :
    (pair key value).toList = (Percent.encode key).toList ++ '=' :: (Percent.encode value).toList := by
  rw [pair, String.toList_append, String.toList_append, List.append_assoc]
  rfl

theorem amp_not_mem_pair (key value : String) : '&' ∉ (pair key value).toList := by
  have hside := Percent.not_mem_encode (c := '&') (by decide) (by decide)
  rw [toList_pair, List.mem_append, List.mem_cons]
  rintro (h | h | h)
  · exact hside key h
  · cases h
  · exact hside value h

/-- A pair is cut where it was put together. -/
theorem cut_pair (key value : String) :
    (pair key value).toList.takeWhile (· ≠ '=') = (Percent.encode key).toList ∧
    ((pair key value).toList.dropWhile (· ≠ '=')).drop 1 = (Percent.encode value).toList := by
  have hkey : ∀ c ∈ (Percent.encode key).toList, decide (c ≠ '=') = true := by
    intro c hc
    rw [decide_eq_true_iff]
    rintro rfl
    exact eq_not_mem_encode key hc
  rw [toList_pair, List.takeWhile_append_of_pos hkey, List.dropWhile_append_of_pos hkey]
  simp

theorem parsePair?_pair (key value : String) :
    parsePair? (pair key value).toList = some (key, value) := by
  obtain ⟨hkey, hvalue⟩ := cut_pair key value
  unfold parsePair?
  simp only [hkey, hvalue, String.ofList_toList, Percent.decode?_encode]

/-- Pairs with separators in between are cut into the pairs. -/
theorem pieces_intercalate (parameters : List (String × String)) :
    (splitChars '&' ("&".intercalate (parameters.map fun p => pair p.1 p.2)).toList).filter
        (fun piece => !piece.isEmpty) =
      parameters.map fun p => (pair p.1 p.2).toList := by
  cases parameters with
  | nil => rfl
  | cons p rest =>
    have hamp : ∀ piece ∈ (p :: rest).map fun p => (pair p.1 p.2).toList, '&' ∉ piece := by
      intro piece hpiece
      obtain ⟨q, -, rfl⟩ := List.mem_map.1 hpiece
      exact amp_not_mem_pair q.1 q.2
    have hfull : ∀ piece ∈ (p :: rest).map fun p => (pair p.1 p.2).toList, (!piece.isEmpty) = true := by
      intro piece hpiece
      obtain ⟨q, -, rfl⟩ := List.mem_map.1 hpiece
      rw [toList_pair]
      simp
    rw [String.toList_intercalate, show "&".toList = ['&'] from rfl, List.map_map]
    change (splitChars '&' (['&'].intercalate ((p :: rest).map fun p => (pair p.1 p.2).toList))).filter _ = _
    rw [Url.splitChars_intercalate (by simp) hamp, List.filter_eq_self.2 hfull]

/-- A query is the pairs that its keys send. -/
theorem encode_eq (q : Query) :
    q.encode = "&".intercalate ((q.entries.flatMap fun e => sent e.1 e.2).map fun p => pair p.1 p.2) := by
  rw [encode, List.map_flatMap]
  exact congrArg _ (List.flatMap_congr fun e _ => pairs_eq e.1 e.2)

/-- What any query reads as. -/
theorem parse?_encode (q : Query) :
    parse? q.encode = some (q.entries.flatMap fun e => sent e.1 e.2) := by
  rw [encode_eq, parse?, pieces_intercalate, List.mapM_map]
  refine (mapM_eq_some_map fun p _ => ?_).trans (congrArg some (List.map_id _))
  exact parsePair?_pair p.1 p.2

theorem encode_eq_empty_iff {q : Query} (h : Solid q) : q.encode = "" ↔ q.entries = [] := by
  constructor
  · intro hempty
    have hparse := parse?_encode q
    rw [hempty] at hparse
    have hnone : (q.entries.flatMap fun e => sent e.1 e.2) = [] := (Option.some.inj hparse).symm
    refine List.eq_nil_iff_forall_not_mem.2 ?_
    rintro ⟨k, values⟩ hmem
    have hvalues : values ≠ [] := by
      rintro rfl
      exact h k ((Keyed.mem_entries_iff q k []).1 hmem)
    exact sent_ne_nil hvalues (List.flatMap_eq_nil_iff.1 hnone _ hmem)
  · intro hnil
    rw [encode, hnil]
    rfl

/-- **Encoding is lossless and canonical.**  For every way of putting a query together,
    what it encodes to reads as the values that were added, for the keys in ascending
    order of their bytes and below each key in the order of adding; several values of a
    list key are one text, joined by commas.  It is empty exactly when nothing was added. -/
theorem parse?_encode_query (a : Assembly) :
    ∃ keys : List String,
      keys.Pairwise (fun j k => Utf8.encode j < Utf8.encode k) ∧
      (∀ key, key ∈ keys ↔ ∃ value, (key, value) ∈ a.added) ∧
      parse? a.query.encode = some (keys.flatMap fun key => sent key (valuesOf key a.added)) ∧
      (a.query.encode = "" ↔ a.added = []) := by
  refine ⟨a.query.keys, ?_, mem_keys_query a, ?_, ?_⟩
  · exact (Keyed.keys_ascending a.query).imp fun h => (Utf8.encode_lt_encode_iff _ _).2 h
  · rw [parse?_encode, Keyed.keys, List.flatMap_map]
    refine congrArg some (List.flatMap_congr ?_)
    rintro ⟨k, values⟩ hmem
    have hfound := (Keyed.mem_entries_iff a.query k values).1 hmem
    rw [((find?_query a k values).1 hfound).1]
  · rw [encode_eq_empty_iff (solid_query a)]
    constructor
    · intro hnil
      refine List.eq_nil_iff_forall_not_mem.2 ?_
      rintro ⟨k, value⟩ hmem
      have hkey := (mem_keys_query a k).2 ⟨value, hmem⟩
      rw [Keyed.keys, hnil] at hkey
      cases hkey
    · intro hnil
      refine List.eq_nil_iff_forall_not_mem.2 ?_
      rintro ⟨k, values⟩ hmem
      obtain ⟨value, hvalue⟩ := (mem_keys_query a k).1 (List.mem_map.2 ⟨_, hmem, rfl⟩)
      rw [hnil] at hvalue
      cases hvalue

example : (((Assembly.empty.append "include" "a").append "=&" "+").append "include" "b").query.encode =
    "%3D%26=%2B&include=a%2Cb" := by
  decide

end TerraformCloud.Query
