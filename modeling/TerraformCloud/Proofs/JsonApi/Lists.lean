/-
  TerraformCloud/Proofs/JsonApi/Lists.lean
  ========================================
  **A list is read as its items are, one document each.**

  A list document is looked at as a whole first: its `data` is brought into the form of
  a value, with members in order, and only then are the items read.  A document with one
  resource is read as it is written.  Since resources are read alike in either form
  (`Resource.stable`), a page holds exactly what the documents of its items hold
  (`decodeList_agrees`).
-/
import TerraformCloud.Kind
import TerraformCloud.Proofs.JsonApi.Stable
import TerraformCloud.Proofs.Json.Reading

namespace TerraformCloud

open Json (Value Written)
open Json.Value (written ordered)
open Schema (Fits)

/-! ## 1. Documents of one resource and of many -/

/-- The document with one primary value. -/
def primaryDocument (v : Value) : Written := .object [(some "data", v.written)]

/-- The document of a list, either of whose members may be missing. -/
def listDocument (data : Option Value) (meta_ : Option Written) : Written :=
  .object <| (data.map fun v => (some "data", v.written)).toList ++
    (meta_.map fun w => (some "meta", w)).toList

section One

variable {α : Type} [Recorded α]

/-- A document of one resource is read where the resource is. -/
theorem decodeOne_eq_ok_iff {bytes : Bytes} {v : Value} (h : Json.parse? bytes = some (primaryDocument v))
    (r : Resource α) : decodeOne α bytes = .ok r ↔ Resource.read? 126 v.written = some r := by
  have hread : Document.read? (α := α) Written.depthLimit (primaryDocument v) =
      (Resource.read? 126 v.written).map fun r => ⟨r, []⟩ := by
    have hslots : slotsWithin? ["data", "included"] Written.depthLimit (primaryDocument v) =
        some [some v.written, none] := rfl
    rw [Document.read?, hslots]
    dsimp only [Written.depthLimit, Nat.reduceSub, Document.readIncluded?]
    cases Resource.read? (α := α) 126 v.written <;> rfl
  rw [decodeOne, decodeDocument, ofBytes, h, Option.bind_some, hread]
  cases Resource.read? (α := α) 126 v.written with
  | none => simp [Except.map]
  | some r' => simp [Except.map]

end One

/-! ## 2. What a list says about its position -/

/-- The position that the `meta` of a list reports: none, where `meta` or its `pagination`
    is missing or `null`, else what `pagination` is read as. -/
inductive Reports (π : Type) [Recorded π] : Option Written → Option π → Prop where
  | missing : Reports π none none
  | null : Reports π (some .null) none
  | withoutBlock {m : Written} {block : Option Written}
      (found : Schema.slots? ["pagination"] m = some [block]) (empty : block = none ∨ block = some .null) :
      Reports π (some m) none
  | block {m block : Written} {p : π} (found : Schema.slots? ["pagination"] m = some [some block])
      (read : Recorded.read? π 125 block = some p) : Reports π (some m) (some p)

section Position

variable {π : Type} [Recorded π]

theorem Recorded.read?_null (depth : Nat) : Recorded.read? π depth .null = none := by
  rw [Recorded.read?, Schema.read?_record rfl, slotsWithin?]
  split <;> rfl

theorem length_slots? {names : List String} {w : Written} {found : List (Option Written)}
    (h : Schema.slots? names w = some found) : found.length = names.length := by
  unfold Schema.slots? at h
  split at h
  · split at h
    · cases h
    · split at h
      · cases h
      · cases h
        exact List.length_map _
  · split at h
    · cases h
    · cases h
      rw [List.length_map, List.length_range]
  · cases h

/-- What is missing or `null` is read as nothing, and everything else as a value. -/
theorem nullable_eq_some_iff {β : Type} {read? : Written → Option β} {w : Option Written} {x : Option β} :
    nullable read? w = some x ↔ ((w = none ∨ w = some .null) ∧ x = none) ∨
      ∃ v y, w = some v ∧ v ≠ .null ∧ read? v = some y ∧ x = some y := by
  constructor
  · intro h
    match w with
    | none =>
      cases h
      exact .inl ⟨.inl rfl, rfl⟩
    | some v =>
      by_cases hnull : v = .null
      · rw [hnull] at h ⊢
        cases h
        exact .inl ⟨.inr rfl, rfl⟩
      · rw [nullable_some hnull] at h
        obtain ⟨y, hy, rfl⟩ := Option.map_eq_some_iff.1 h
        exact .inr ⟨v, y, rfl, hnull, hy, rfl⟩
  · rintro (⟨rfl | rfl, rfl⟩ | ⟨v, y, rfl, hnull, hy, rfl⟩)
    · rfl
    · rfl
    · rw [nullable_some hnull, hy]
      rfl

/-- What two readers make of a value is what they make of one that may be missing. -/
theorem nullable_map {β γ : Type} {read? : Written → Option β} {other? : Written → Option γ} {f : β → γ}
    {w : Option Written} {x : Option β}
    (h : ∀ v y, w = some v → v ≠ .null → read? v = some y → other? v = some (f y))
    (hx : nullable read? w = some x) : nullable other? w = some (x.map f) := by
  rcases nullable_eq_some_iff.1 hx with ⟨hempty, rfl⟩ | ⟨v, y, hv, hnull, hy, rfl⟩
  · exact nullable_eq_some_iff.2 (.inl ⟨hempty, rfl⟩)
  · exact nullable_eq_some_iff.2 (.inr ⟨v, f y, hv, hnull, h v y hv hnull hy, rfl⟩)

theorem readMeta?_eq_some_iff (m : Written) (said : Option π) :
    ListDocument.readMeta? 126 m = some said ↔
      ∃ block, Schema.slots? ["pagination"] m = some [block] ∧
        nullable (Recorded.read? π 125) block = some said := by
  have hslots : slotsWithin? ["pagination"] 126 m = Schema.slots? ["pagination"] m := rfl
  rw [ListDocument.readMeta?, hslots]
  cases hfound : Schema.slots? ["pagination"] m with
  | none => simp
  | some found =>
    obtain ⟨block, rfl⟩ := List.length_eq_one_iff.1 (length_slots? hfound)
    simp

/-- The reader of `meta` finds what it reports. -/
theorem reports_iff (meta_ : Option Written) (said : Option π) :
    Reports π meta_ said ↔
      ∃ p, nullable (ListDocument.readMeta? 126) meta_ = some p ∧ p.join = said := by
  have hfind : ∀ {m block x}, Schema.slots? ["pagination"] m = some [block] →
      nullable (Recorded.read? π 125) block = some x →
        nullable (ListDocument.readMeta? 126) (some m) = some (some x) := by
    intro m block x hfound hblock
    have hnotnull : m ≠ .null := by
      rintro rfl
      cases hfound
    exact nullable_eq_some_iff.2
      (.inr ⟨m, x, rfl, hnotnull, (readMeta?_eq_some_iff m x).2 ⟨block, hfound, hblock⟩, rfl⟩)
  constructor
  · intro h
    cases h with
    | missing => exact ⟨none, rfl, rfl⟩
    | null => exact ⟨none, rfl, rfl⟩
    | withoutBlock found empty =>
      exact ⟨_, hfind found (nullable_eq_some_iff.2 (.inl ⟨empty, rfl⟩)), rfl⟩
    | block found read =>
      refine ⟨_, hfind found (nullable_eq_some_iff.2 (.inr ⟨_, _, rfl, ?_, read, rfl⟩)), rfl⟩
      rintro rfl
      rw [Recorded.read?_null] at read
      cases read
  · rintro ⟨p, hp, rfl⟩
    rcases nullable_eq_some_iff.1 hp with ⟨rfl | rfl, rfl⟩ | ⟨m, said, rfl, -, hsaid, rfl⟩
    · exact .missing
    · exact .null
    · obtain ⟨block, hfound, hblock⟩ := (readMeta?_eq_some_iff m said).1 hsaid
      rcases nullable_eq_some_iff.1 hblock with ⟨hempty, rfl⟩ | ⟨w, q, rfl, -, hq, rfl⟩
      · exact .withoutBlock hfound hempty
      · exact .block hfound hq

/-- What is read of a list before its items are. -/
theorem ListDocument.read?_eq_some_iff {w : Written} {raw : ListDocument π} :
    ListDocument.read? Written.depthLimit w = some raw ↔
      ∃ data meta_ p, Schema.slots? ["data", "meta"] w = some [data, meta_] ∧
        data.elim (some (.null : Value)) (Written.value? 126) = some raw.data ∧
        nullable (ListDocument.readMeta? 126) meta_ = some p ∧ p.join = raw.pagination := by
  have hslots : slotsWithin? ["data", "meta"] Written.depthLimit w = Schema.slots? ["data", "meta"] w := rfl
  rw [ListDocument.read?, hslots]
  cases hfound : Schema.slots? ["data", "meta"] w with
  | none => simp
  | some found =>
    obtain ⟨data, meta_, rfl⟩ := List.length_eq_two.1 (length_slots? hfound)
    obtain ⟨value, pagination⟩ := raw
    dsimp only
    rw [show Written.depthLimit - 1 = 126 from rfl]
    cases hdata : data.elim (some (.null : Value)) (Written.value? 126) <;>
      cases hp : nullable (ListDocument.readMeta? (π := π) 126) meta_ <;> simp [hdata, hp]

theorem read?_listDocument {data : Option Value} (h : ∀ v, data = some v → v.depth ≤ 126)
    {meta_ : Option Written} {raw : ListDocument π} :
    ListDocument.read? Written.depthLimit (listDocument data meta_) = some raw ↔
      raw.data = (data.map ordered).getD .null ∧ Reports π meta_ raw.pagination := by
  have hslots : Schema.slots? ["data", "meta"] (listDocument data meta_) =
      some [data.map written, meta_] := by
    cases data <;> cases meta_ <;> rfl
  have hdata : (data.map written).elim (some (.null : Value)) (Written.value? 126) =
      some ((data.map ordered).getD .null) := by
    cases data with
    | none => rfl
    | some v => exact Json.Written.value?_written (h v rfl)
  rw [ListDocument.read?_eq_some_iff, reports_iff, hslots]
  constructor
  · rintro ⟨_, _, p, hfound, hread, hp, hjoin⟩
    cases hfound
    rw [hdata] at hread
    exact ⟨(Option.some.inj hread).symm, p, hp, hjoin⟩
  · rintro ⟨hread, p, hp, hjoin⟩
    exact ⟨_, _, p, rfl, hdata.trans (congrArg some hread.symm), hp, hjoin⟩

end Position

/-! ## 3. Items -/

section Items

variable {α π : Type} [Recorded α] [Recorded π]

/-- Two relations that agree on what belongs together relate the same lists. -/
theorem forall₂_iff_of_forall₂ {β γ δ : Type} {P : β → γ → Prop} {R : β → δ → Prop} {Q : γ → δ → Prop}
    (h : ∀ b c, P b c → ∀ d, R b d ↔ Q c d) {bs : List β} {cs : List γ} (hbs : List.Forall₂ P bs cs)
    (ds : List δ) : List.Forall₂ R bs ds ↔ List.Forall₂ Q cs ds := by
  induction hbs generalizing ds with
  | nil => rw [List.forall₂_nil_left_iff, List.forall₂_nil_left_iff]
  | cons hfirst _ ih =>
    rw [List.forall₂_cons_left_iff, List.forall₂_cons_left_iff]
    simp only [h _ _ hfirst, ih]

/-- The items of a list are read from their ordered forms as they are read from their own
    documents. -/
theorem mapM_items {singles : List Bytes} {vs : List Value}
    (hvs : ∀ v ∈ vs, v.Distinct ∧ v.depth ≤ 125)
    (hsingles : List.Forall₂ (fun b v => Json.parse? b = some (primaryDocument v)) singles vs)
    (rs : List (Resource α)) :
    (vs.map ordered).mapM (fun v => Resource.read? (α := α) Written.depthLimit v.written) = some rs ↔
      List.Forall₂ (fun b r => decodeOne α b = .ok r) singles rs := by
  have hread : (vs.map ordered).mapM (fun v => Resource.read? (α := α) Written.depthLimit v.written) =
      vs.mapM fun v => Resource.read? (α := α) 126 v.written := by
    rw [List.mapM_map]
    refine mapM_congr fun v hv => ?_
    obtain ⟨hdistinct, hdepth⟩ := hvs v hv
    have hfits : Fits v Written.depthLimit 126 :=
      ⟨hdistinct, Nat.le_trans hdepth (by decide), Nat.le_trans hdepth (by decide)⟩
    exact Resource.stable v _ _ hfits
  rw [hread, mapM_eq_some_iff]
  exact (forall₂_iff_of_forall₂ (P := fun b v => Json.parse? b = some (primaryDocument v))
    (fun _ _ hb r => decodeOne_eq_ok_iff hb r) hsingles rs).symm

/-- A page is the items of a list that was read, each read as a resource, at its position. -/
theorem decodeList_eq_ok_iff {bytes : Bytes} {page : Page (Resource α) π} :
    decodeList α π bytes = .ok page ↔
      ∃ raw items, (Json.parse? bytes).bind (ListDocument.read? (π := π) Written.depthLimit) = some raw ∧
        raw.items? = some items ∧
        items.mapM (fun v => Resource.read? (α := α) Written.depthLimit v.written) = some page.items ∧
        page.pagination = raw.pagination.getD (Recorded.zero π) := by
  rw [decodeList, ofBytes]
  cases (Json.parse? bytes).bind (ListDocument.read? (π := π) Written.depthLimit) with
  | none => simp [bind, Except.bind]
  | some raw =>
    simp only [bind, Except.bind, Option.some.injEq]
    cases hitems : raw.items? with
    | none => simp [hitems]
    | some items =>
      obtain ⟨rs, pagination⟩ := page
      cases hrs : items.mapM (fun v => Resource.read? (α := α) Written.depthLimit v.written) <;>
        simp [hitems, hrs, eq_comm]

theorem decodeList_eq_invalid_iff {bytes : Bytes} :
    decodeList α π bytes = .error .invalidListDocument ↔
      ∃ raw, (Json.parse? bytes).bind (ListDocument.read? (π := π) Written.depthLimit) = some raw ∧
        raw.items? = none := by
  rw [decodeList, ofBytes]
  cases (Json.parse? bytes).bind (ListDocument.read? (π := π) Written.depthLimit) with
  | none => simp [bind, Except.bind]
  | some raw =>
    simp only [bind, Except.bind, Option.some.injEq]
    cases hitems : raw.items? with
    | none => simp [hitems]
    | some items =>
      cases hrs : items.mapM (fun v => Resource.read? (α := α) Written.depthLimit v.written) <;>
        simp [hitems, hrs]

/-- A list has its items in order, and the position it reports. -/
theorem decodeList_of_array {bytes : Bytes} {singles : List Bytes} {vs : List Value}
    {meta_ : Option Written}
    (hvs : ∀ v ∈ vs, v.Distinct ∧ v.depth ≤ 125)
    (hsingles : List.Forall₂ (fun b v => Json.parse? b = some (primaryDocument v)) singles vs)
    (hbytes : Json.parse? bytes = some (listDocument (some (.array vs)) meta_))
    (page : Page (Resource α) π) :
    decodeList α π bytes = .ok page ↔
      List.Forall₂ (fun b r => decodeOne α b = .ok r) singles page.items ∧
      ∃ said, Reports π meta_ said ∧ page.pagination = said.getD (Recorded.zero π) := by
  have hdepth : ∀ v : Value, some (.array vs) = some v → v.depth ≤ 126 := by
    rintro v heq
    cases heq
    exact Json.Tree.depth_array_le_iff.2 ⟨by decide, fun v hv => (hvs v hv).2⟩
  have hitems : ∀ raw : ListDocument π, raw.data = ((some (.array vs : Value)).map ordered).getD .null →
      raw.items? = some (vs.map ordered) := by
    intro raw hraw
    rw [ListDocument.items?, hraw, Option.map_some, Json.Value.ordered_array]
    rfl
  rw [decodeList_eq_ok_iff, hbytes, Option.bind_some]
  simp only [read?_listDocument hdepth]
  constructor
  · rintro ⟨raw, items, ⟨hdata, hreports⟩, hlist, hread, hposition⟩
    rw [hitems raw hdata] at hlist
    cases hlist
    exact ⟨(mapM_items hvs hsingles _).1 hread, raw.pagination, hreports, hposition⟩
  · rintro ⟨hread, said, hreports, hposition⟩
    exact ⟨⟨_, said⟩, _, ⟨rfl, hreports⟩, hitems _ rfl, (mapM_items hvs hsingles _).2 hread, hposition⟩

/-- What is no array is no list. -/
theorem decodeList_of_not_array {bytes : Bytes} {data : Option Value} {meta_ : Option Written}
    (hdata : ∀ v, data = some v → v.depth ≤ 126 ∧ ∀ items, v ≠ .array items)
    (hbytes : Json.parse? bytes = some (listDocument data meta_)) :
    decodeList α π bytes = .error .invalidListDocument ↔ ∃ said, Reports π meta_ said := by
  have hitems : ∀ raw : ListDocument π, raw.data = (data.map ordered).getD .null → raw.items? = none := by
    intro raw hraw
    rw [ListDocument.items?, hraw]
    match data, hdata with
    | none, _ => rfl
    | some (.array items), hdata => exact absurd rfl ((hdata _ rfl).2 items)
    | some (.object members), _ => rw [Option.map_some, Json.Value.ordered_object]; rfl
    | some .null, _ => rfl
    | some (.bool b), _ => rfl
    | some (.number n), _ => rfl
    | some (.string s), _ => rfl
  rw [decodeList_eq_invalid_iff, hbytes, Option.bind_some]
  simp only [read?_listDocument fun v hv => (hdata v hv).1]
  constructor
  · rintro ⟨raw, ⟨-, hreports⟩, -⟩
    exact ⟨raw.pagination, hreports⟩
  · rintro ⟨said, hreports⟩
    exact ⟨⟨_, said⟩, ⟨rfl, hreports⟩, hitems _ rfl⟩

end Items

/-! ## 4. Positions without totals -/

/-- A position without its totals. -/
def Pagination.neighbours (p : Pagination) : Neighbours := ⟨p.currentPage, p.previousPage, p.nextPage⟩

/-- The block with the position, where there is one. -/
def paginationBlock? (w : Written) : Option Written :=
  match Schema.slots? ["data", "meta"] w with
  | some [_, some m] =>
    match Schema.slots? ["pagination"] m with
    | some [block] => block
    | _ => none
  | _ => none

/-- Whoever looks for fewer names in an object finds the same under them. -/
theorem slots?_of_append {names more : List String} {members : List (Option String × Written)}
    {found : List (Option Written)} (h : Schema.slots? (names ++ more) (.object members) = some found) :
    Schema.slots? names (.object members) = some (found.take names.length) := by
  rw [Schema.slots?] at h ⊢
  split at h
  · cases h
  next hkeys =>
  split at h
  · cases h
  next honce =>
  rw [List.any_append, Bool.or_eq_true, not_or] at honce
  cases h
  rw [if_neg hkeys, if_neg honce.1, List.map_append, ← List.length_map, List.take_left]

theorem read?_cons_eq_some_iff {name : String} {presence : Schema.Presence} {type : Schema.FieldType}
    {rest : Schema.Fields} {depth : Nat} {found : List (Option Written)} {v : type.Value}
    {r : rest.Record} :
    (Schema.Fields.cons name presence type rest).read? depth found = some (v, r) ↔
      Schema.Fields.value? presence type depth found.head?.join = some v ∧
      rest.read? depth found.tail = some r := by
  rw [Schema.read?_cons]
  cases Schema.Fields.value? presence type depth found.head?.join <;>
    cases rest.read? depth found.tail <;> simp

/-- **An object that is a position with totals is one without.** -/
theorem read?_neighbours {members : List (Option String × Written)} {depth : Nat} {p : Pagination}
    (h : Recorded.read? Pagination depth (.object members) = some p) :
    Recorded.read? Neighbours depth (.object members) = some p.neighbours := by
  obtain ⟨⟨current, previous, next, pages, count, ⟨⟩⟩, hr, rfl⟩ := Option.map_eq_some_iff.1 h
  rw [Schema.read?_record rfl] at hr
  obtain ⟨found, hfound, hr⟩ := Option.bind_eq_some_iff.1 hr
  obtain ⟨hcurrent, hr⟩ := read?_cons_eq_some_iff.1 hr
  obtain ⟨hprevious, hr⟩ := read?_cons_eq_some_iff.1 hr
  obtain ⟨hnext, -⟩ := read?_cons_eq_some_iff.1 hr
  rw [slotsWithin?] at hfound
  split at hfound
  · cases hfound
  next hdepth =>
  have hfewer : slotsWithin? (Recorded.fields Neighbours).names depth (.object members) =
      some (found.take 3) := by
    rw [slotsWithin?, if_neg hdepth]
    exact slots?_of_append hfound
  have hread : (Recorded.fields Neighbours).read? (depth - 1) (found.take 3) =
      some (current, previous, next, ()) := by
    refine read?_cons_eq_some_iff.2 ⟨?_, read?_cons_eq_some_iff.2 ⟨?_, read?_cons_eq_some_iff.2 ⟨?_, rfl⟩⟩⟩
    · rw [List.head?_take, if_neg (by decide)]
      exact hcurrent
    · rw [List.tail_take_eq_take_tail, List.head?_take, if_neg (by decide)]
      exact hprevious
    · rw [List.tail_take_eq_take_tail, List.tail_take_eq_take_tail, List.head?_take, if_neg (by decide)]
      exact hnext
  rw [Recorded.read?, Schema.read?_record rfl, hfewer, Option.bind_some, hread]
  rfl

/-- What the reader of `meta` does with a position, it does without its totals. -/
theorem readMeta?_neighbours {m : Written} {said : Option Pagination}
    (hblock : ∀ block, Schema.slots? ["pagination"] m = some [some block] →
      block = .null ∨ ∃ members, block = .object members)
    (h : ListDocument.readMeta? 126 m = some said) :
    ListDocument.readMeta? 126 m = some (said.map Pagination.neighbours) := by
  obtain ⟨block, hfound, hread⟩ := (readMeta?_eq_some_iff m said).1 h
  refine (readMeta?_eq_some_iff m _).2 ⟨block, hfound, nullable_map ?_ hread⟩
  rintro v p rfl hnull hp
  rcases hblock v hfound with rfl | ⟨members, rfl⟩
  · exact absurd rfl hnull
  · exact read?_neighbours hp

/-- **A list with totals is a list without**, if its position is no array. -/
theorem decodeList_neighbours {α : Type} [Recorded α] {bytes : Bytes} {page : Page (Resource α) Pagination}
    (hblock : ∀ block, (Json.parse? bytes).bind paginationBlock? = some block →
      block = .null ∨ ∃ members, block = .object members)
    (h : decodeList α Pagination bytes = .ok page) :
    decodeList α Neighbours bytes = .ok ⟨page.items, page.pagination.neighbours⟩ := by
  obtain ⟨raw, items, hraw, hitems, hread, hposition⟩ := decodeList_eq_ok_iff.1 h
  obtain ⟨w, hw, hraw⟩ := Option.bind_eq_some_iff.1 hraw
  obtain ⟨data, meta_, p, hslots, hdata, hp, hjoin⟩ := ListDocument.read?_eq_some_iff.1 hraw
  have hfewer : nullable (ListDocument.readMeta? 126) meta_ =
      some (p.map (Option.map Pagination.neighbours)) := by
    refine nullable_map ?_ hp
    rintro m said rfl - hsaid
    refine readMeta?_neighbours (fun block hfound => hblock block ?_) hsaid
    rw [hw, Option.bind_some, paginationBlock?, hslots]
    dsimp only
    rw [hfound]
  refine decodeList_eq_ok_iff.2 ⟨⟨raw.data, raw.pagination.map Pagination.neighbours⟩, items, ?_, hitems,
    hread, ?_⟩
  · rw [hw, Option.bind_some]
    refine ListDocument.read?_eq_some_iff.2 ⟨data, meta_, _, hslots, hdata, hfewer, ?_⟩
    rw [← hjoin]
    cases p <;> rfl
  · dsimp only
    rw [hposition]
    cases raw.pagination <;> rfl

/-! ## 5. Lists and their items -/

/-- **A page holds what the documents of its items hold.**  For resources of any kind and
    positions of any type:
    a list is accepted if and only if each of its items is accepted as a document of its
    own and `meta` says where the list stands, or nothing; its items are then the
    resources of these documents in order, and its position is the one that `meta`
    reports, or at its zeros where none is reported;
    without an array of items there is no list, whatever `meta` reports;
    and what was read with totals is read without, unless the position is an array. -/
theorem decodeList_agrees (kind : Kind) {π : Type} [Recorded π] :
    (∀ (bytes : Bytes) (singles : List Bytes) (vs : List Value) (meta_ : Option Written),
      (∀ v ∈ vs, v.Distinct ∧ v.depth ≤ 125) →
      List.Forall₂ (fun b v => Json.parse? b = some (primaryDocument v)) singles vs →
      Json.parse? bytes = some (listDocument (some (.array vs)) meta_) →
        ((∃ page, decodeList kind.Attributes π bytes = .ok page) ↔
          (∀ b ∈ singles, ∃ r, decodeOne kind.Attributes b = .ok r) ∧ ∃ said, Reports π meta_ said) ∧
        ∀ page, decodeList kind.Attributes π bytes = .ok page ↔
          List.Forall₂ (fun b r => decodeOne kind.Attributes b = .ok r) singles page.items ∧
          ∃ said, Reports π meta_ said ∧ page.pagination = said.getD (Recorded.zero π)) ∧
    (∀ (bytes : Bytes) (data : Option Value) (meta_ : Option Written),
      (∀ v, data = some v → v.depth ≤ 126 ∧ ∀ items, v ≠ .array items) →
      Json.parse? bytes = some (listDocument data meta_) →
        (decodeList kind.Attributes π bytes = .error .invalidListDocument ↔ ∃ said, Reports π meta_ said)) ∧
    ∀ (bytes : Bytes) (page : Page (Resource kind.Attributes) Pagination),
      (∀ block, (Json.parse? bytes).bind paginationBlock? = some block →
        block = .null ∨ ∃ members, block = .object members) →
      decodeList kind.Attributes Pagination bytes = .ok page →
        decodeList kind.Attributes Neighbours bytes = .ok ⟨page.items, page.pagination.neighbours⟩ := by
  refine ⟨fun bytes singles vs meta_ hvs hsingles hbytes => ?_,
    fun bytes data meta_ hdata hbytes => decodeList_of_not_array hdata hbytes,
    fun bytes page hblock h => decodeList_neighbours hblock h⟩
  have hpage := decodeList_of_array (α := kind.Attributes) (π := π) hvs hsingles hbytes
  refine ⟨⟨?_, ?_⟩, hpage⟩
  · rintro ⟨page, h⟩
    obtain ⟨hread, said, hsaid, -⟩ := (hpage page).1 h
    exact ⟨exists_forall₂_iff.1 ⟨page.items, hread⟩, said, hsaid⟩
  · rintro ⟨hall, said, hsaid⟩
    obtain ⟨rs, hread⟩ := exists_forall₂_iff.2 hall
    exact ⟨⟨rs, said.getD (Recorded.zero π)⟩, (hpage _).2 ⟨hread, said, hsaid, rfl⟩⟩

/-- A project, and a position in a list of projects. -/
def sampleProject : Value :=
  .object [("id", .string "prj-1"), ("attributes", .object [("name", .string "main")])]

def samplePosition : Value :=
  .object [("pagination", .object [("current-page", Json.Value.nat 1), ("next-page", Json.Value.nat 2)])]

theorem decodeList_project :
    let one : Value := .object [("data", sampleProject)]
    let many : Value := .object [("data", .array [sampleProject, sampleProject]), ("meta", samplePosition)]
    let page : Page (Resource Project) Pagination :=
      ⟨[⟨"prj-1", ⟨"main", none, none⟩, .empty⟩, ⟨"prj-1", ⟨"main", none, none⟩, .empty⟩], ⟨1, none, some 2, 0, 0⟩⟩
    decodeList Project Pagination (Utf8.encode many.compact) = .ok page ∧
    decodeList Project Pagination (Utf8.encode one.compact) = .error .invalidListDocument ∧
    decodeList Project Neighbours (Utf8.encode many.compact) = .ok ⟨page.items, page.pagination.neighbours⟩ := by
  intro one many page
  obtain ⟨hitems, hinvalid, hneighbours⟩ := decodeList_agrees .project (π := Pagination)
  have hone : Json.parse? (Utf8.encode one.compact) = some (primaryDocument sampleProject) :=
    Json.parse?_compact one (fun n hn => absurd hn List.not_mem_nil)
  have hnumbers : ∀ n ∈ many.numbers, n.ReadsBack := by
    intro n hn
    have hmem : n ∈ [Json.Number.integer 1, .integer 2] := hn
    simp only [List.mem_cons, List.not_mem_nil, or_false] at hmem
    rcases hmem with rfl | rfl
    · exact Json.Number.readsBack_integer ⟨by decide, by decide⟩
    · exact Json.Number.readsBack_integer ⟨by decide, by decide⟩
  have hmany : Json.parse? (Utf8.encode many.compact) =
      some (listDocument (some (.array [sampleProject, sampleProject])) (some samplePosition.written)) :=
    Json.parse?_compact many hnumbers
  have hproject :
      decodeOne Project (Utf8.encode one.compact) = .ok ⟨"prj-1", ⟨"main", none, none⟩, .empty⟩ :=
    (decodeOne_eq_ok_iff hone _).2 rfl
  have hdistinct : sampleProject.Distinct ∧ sampleProject.depth ≤ 125 :=
    ⟨⟨by decide, trivial, ⟨by decide, trivial, trivial⟩, trivial⟩, by decide⟩
  have hpage : decodeList Project Pagination (Utf8.encode many.compact) = .ok page := by
    refine ((hitems _ [Utf8.encode one.compact, Utf8.encode one.compact] _ _ ?_ ?_ hmany).2 page).2
      ⟨?_, some ⟨1, none, some 2, 0, 0⟩, .block rfl rfl, rfl⟩
    · rintro v hv
      simp only [List.mem_cons, List.not_mem_nil, or_false, or_self] at hv
      rw [hv]
      exact hdistinct
    · exact .cons hone (.cons hone .nil)
    · exact .cons hproject (.cons hproject .nil)
  refine ⟨hpage, ?_, hneighbours _ page ?_ hpage⟩
  · refine (hinvalid _ (some sampleProject) none ?_ hone).2 ⟨none, .missing⟩
    rintro v heq
    cases heq
    exact ⟨Nat.le_succ_of_le hdistinct.2, fun items heq => by cases heq⟩
  · intro block hblock
    rw [hmany] at hblock
    have hobject : paginationBlock? (listDocument (some (.array [sampleProject, sampleProject]))
        (some samplePosition.written)) = some (.object [(some "current-page", .number (some (.integer 1))),
          (some "next-page", .number (some (.integer 2)))]) := rfl
    rw [Option.bind_some, hobject] at hblock
    cases hblock
    exact .inr ⟨_, rfl⟩

end TerraformCloud
