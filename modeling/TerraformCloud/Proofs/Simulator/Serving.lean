/-
  TerraformCloud/Proofs/Simulator/Serving.lean
  ============================================
  **What the simulated service answers to a list.**

  A list is answered one page at a time.  The client reads such a page as it was meant
  (`decodeList_listing`): the resources that stand on it, and where it stands, which says
  that another page follows exactly if items are left behind it (`lt_pageCount_iff`).
  Which resources are listed is said without the way they are looked up (`IsListed`):
  those of the organization that were searched for, by name.
-/
import TerraformCloud.Proofs.JsonApi.RoundTrip
import TerraformCloud.Proofs.Query.Canonical
import TerraformCloud.Proofs.Url.Identifier
import TerraformCloud.Simulator.Serve

namespace TerraformCloud.Simulator

open Json (Value Sendable)
open Json.Value (written ordered)

/-! ## 1. Where a page stands -/

theorem lt_pageCount_iff {total size : Nat} (hsize : 0 < size) (number : Nat) :
    number < pageCount total size ↔ number * size < total := by
  rw [pageCount, ← Nat.succ_le_iff, Nat.le_div_iff_mul_le hsize, Nat.succ_mul]
  omega

theorem pageCount_le {size : Nat} (hsize : 0 < size) (total : Nat) : pageCount total size ≤ total := by
  refine Nat.not_lt.1 fun h => ?_
  have hmul := (lt_pageCount_iff hsize total).1 h
  exact Nat.lt_irrefl _ (Nat.lt_of_le_of_lt (Nat.le_mul_of_pos_right total hsize) hmul)

namespace ListQuery

variable (q : ListQuery)

theorem pageSize_pos : 0 < q.pageSize := Nat.le_max_left _ _

theorem pageNumber_lt : q.pageNumber < 2 ^ 32 := by
  have hnumber : q.number.elim 1 UInt32.toNat < 2 ^ 32 := by
    cases q.number with
    | none => decide
    | some n => exact n.toNat_lt
  exact Nat.max_lt.2 ⟨by decide, hnumber⟩

/-- Where the page of a list with so many items stands. -/
def position (total : Nat) : Pagination where
  currentPage := .ofNat q.pageNumber
  previousPage := if 1 < q.pageNumber then some (.ofNat (q.pageNumber - 1)) else none
  nextPage := if q.pageNumber < pageCount total q.pageSize then some (.ofNat (q.pageNumber + 1)) else none
  totalPages := .ofNat (pageCount total q.pageSize)
  totalCount := .ofNat total

theorem write_natural {n : Nat} (h : n < 2 ^ 32) :
    Schema.FieldType.write .natural32 (UInt32.ofNat n) = Value.nat n := by
  rw [Schema.FieldType.write, UInt32.toNat_ofNat_of_lt' h]

theorem write_neighbour {n : Nat} {p : Prop} [Decidable p] (h : p → n < 2 ^ 32) :
    Schema.FieldType.write (.optional .natural32) (if p then some (UInt32.ofNat n) else none) =
      if p then Value.nat n else .null := by
  split
  · next hp => exact write_natural (h hp)
  · rfl

/-- What an answer says about its page is the position, in the form of a record. -/
theorem write_position {total : Nat} (h : total < 2 ^ 32) :
    Recorded.write (q.position total) = .object
      [("current-page", Value.nat q.pageNumber),
       ("prev-page", if 1 < q.pageNumber then Value.nat (q.pageNumber - 1) else .null),
       ("next-page",
         if q.pageNumber < pageCount total q.pageSize then Value.nat (q.pageNumber + 1) else .null),
       ("total-pages", Value.nat (pageCount total q.pageSize)), ("total-count", Value.nat total)] := by
  have hpages : pageCount total q.pageSize < 2 ^ 32 :=
    Nat.lt_of_le_of_lt (pageCount_le q.pageSize_pos total) h
  have hnumber := q.pageNumber_lt
  have htotal : Schema.FieldType.write .natural64 (UInt64.ofNat total) = Value.nat total := by
    rw [Schema.FieldType.write, UInt64.toNat_ofNat_of_lt' (Nat.lt_trans h (by decide))]
  have hprevious := write_neighbour (n := q.pageNumber - 1) (p := 1 < q.pageNumber) fun _ => by omega
  have hnext := write_neighbour (n := q.pageNumber + 1) (p := q.pageNumber < pageCount total q.pageSize)
    fun _ => by omega
  rw [← hprevious, ← hnext, ← write_natural hnumber, ← write_natural hpages, ← htotal]
  rfl

end ListQuery

/-! ## 2. The page as it is read -/

theorem reports_position (p : Pagination) :
    Reports Pagination (some (ordered (.object [("pagination", Recorded.write p)])).written) (some p) := by
  have hwell : (Schema.FieldType.record (Recorded.fields Pagination)).wellFormed = true := by decide
  have hsend := (Recorded.sendable_write hwell p).mono (show _ ≤ 125 by decide)
  have hslots :
      Schema.slots? ["pagination"] (ordered (.object [("pagination", Recorded.write p)])).written =
        some [some (Recorded.write p).ordered.written] := by
    rw [Json.Value.ordered_object, List.map_singleton,
      Json.Value.orderMembers_of_ascending (List.pairwise_singleton _ _), Json.Value.written_object]
    rfl
  refine .block hslots ?_
  rw [Recorded.stable (Recorded.write p) 125 125 ⟨hsend.distinct, hsend.depth_le, hsend.depth_le⟩]
  exact Recorded.read?_write hwell p (by decide)

theorem sendable_position (p : Pagination) : Sendable (.object [("pagination", Recorded.write p)]) 126 := by
  have hwell : (Schema.FieldType.record (Recorded.fields Pagination)).wellFormed = true := by decide
  refine Sendable.object (List.nodup_singleton _) fun m hm => ?_
  rw [List.mem_singleton.1 hm]
  exact (Recorded.sendable_write hwell p).mono (by decide)

/-- **A page is read as it was meant.** -/
theorem decodeList_listing {kind : Kind} {items : List (Resource kind.Attributes)} (q : ListQuery)
    (hcount : items.length < 2 ^ 32) (hitems : ∀ r ∈ items, r.relationships.Recoverable 122) :
    ∃ body, listing items q = ⟨200, [("content-type", "application/vnd.api+json")], some body⟩ ∧
      decodeList kind.Attributes Pagination body =
        .ok ⟨pageItems items q.pageNumber q.pageSize, q.position items.length⟩ := by
  have hpage : ∀ r ∈ pageItems items q.pageNumber q.pageSize, r.relationships.Recoverable 122 :=
    fun r hr => hitems r (List.mem_of_mem_drop (List.mem_of_mem_take hr))
  have hsend : ∀ m, some (.object [("pagination", Recorded.write (q.position items.length))]) = some m →
      Sendable m 126 := by
    rintro m heq
    cases heq
    exact sendable_position _
  refine ⟨_, ?_, decodeList_sentList hpage hsend (reports_position (q.position items.length))⟩
  rw [q.write_position hcount]
  rfl

/-! ## 3. Finding the list -/

section Workspaces

variable {s : Store} {organization : String}

theorem decode?_identifier {t : String} (h : isIdentifier t = true) : Percent.decode? t = some t := by
  have hplain := Percent.decode?_encode t
  rwa [percentEncode_identifier h] at hplain

theorem unescapeName_identifier {t : String} (h : isIdentifier t = true) : unescapeName t = t := by
  rw [unescapeName, decode?_identifier h]
  rfl

theorem ne_empty_of_isIdentifier {t : String} (h : isIdentifier t = true) : t ≠ "" := by
  rintro rfl
  cases h

theorem ofSegments_workspaces (h : isIdentifier organization = true) :
    Endpoint.ofSegments ["api", "v2", "organizations", organization, "workspaces"] =
      .endpoint (.workspaces organization) := by
  have hne : organization.isEmpty = false := by
    rw [isIdentifier, Bool.and_eq_true, Bool.not_eq_true'] at h
    exact h.1
  change Endpoint.capture organization .workspaces = _
  rw [Endpoint.capture, hne, decode?_identifier h]
  rfl

theorem handle_workspaces {now : Instant} {req : Http.Request} {query : ListQuery}
    (hid : isIdentifier organization = true) (hmethod : req.method = .get)
    (hpath : req.url.path = .segments ["api", "v2", "organizations", organization, "workspaces"])
    (hquery : ListQuery.ofQuery? true req.url.query = some query)
    (hknown : (s.organizations.find? organization).isSome = true) :
    handle now req s = guarded s req.headers (s, listing (matching s organization query.search) query) := by
  have hmethods : (Endpoint.workspaces organization).methods.contains Http.Method.get = true := by
    rfl
  rw [handle, Endpoint.ofUrl, hpath]
  dsimp only
  rw [ofSegments_workspaces hid]
  dsimp only
  rw [answerAt, hmethod, hmethods, Endpoint.serve, hmethod, hquery]
  dsimp only
  rw [unescapeName_identifier hid, hknown]
  rfl

end Workspaces

/-! ## 4. What the list consists of -/

/-- The workspaces of an organization whose names contain a text, by id. -/
def wanted (s : Store) (organization : String) (search : Option String) : List (Resource Workspace) :=
  s.workspaces.values.filter fun w =>
    Store.owner? w = some organization ∧ ∀ text ∈ search, text.toList <:+: w.attributes.name.toList

/-- All that is wanted, each once, by name; those of one name stay by id. -/
structure IsListed (s : Store) (organization : String) (search : Option String)
    (all : List (Resource Workspace)) : Prop where
  perm : all.Perm (wanted s organization search)
  byName : all.Pairwise fun a b => a.attributes.name ≤ b.attributes.name
  byId : ∀ name, all.filter (fun w => w.attributes.name = name) =
    (wanted s organization search).filter fun w => w.attributes.name = name

section Sorting

variable {α : Type} (name : α → String) (l : List α)

/-- Whether one thing may come before another by name. -/
def inOrder (a b : α) : Bool := name a ≤ name b

theorem inOrder_trans (a b c : α) (hab : inOrder name a b = true) (hbc : inOrder name b c = true) :
    inOrder name a c = true :=
  decide_eq_true (String.le_trans (of_decide_eq_true hab) (of_decide_eq_true hbc))

theorem inOrder_total (a b : α) : (inOrder name a b || inOrder name b a) = true := by
  rw [inOrder, inOrder, Bool.or_eq_true, decide_eq_true_iff, decide_eq_true_iff]
  exact String.le_total _ _

/-- Sorting by name keeps the order of those with one name. -/
theorem filter_mergeSort (n : String) :
    (l.mergeSort (inOrder name)).filter (fun a => name a = n) = l.filter fun a => name a = n := by
  have hsame : (l.filter fun a => name a = n).Pairwise fun a b => inOrder name a b = true := by
    refine List.pairwise_of_forall_mem_list fun a ha b hb => ?_
    have hname : name a = name b := by
      rw [of_decide_eq_true (List.mem_filter.1 ha).2, of_decide_eq_true (List.mem_filter.1 hb).2]
    exact decide_eq_true (hname ▸ String.le_refl _)
  have hsub := (List.sublist_mergeSort (inOrder_trans name) (inOrder_total name) hsame
    List.filter_sublist).filter fun a => name a = n
  rw [List.filter_filter, List.filter_congr (fun a _ => Bool.and_self _)] at hsub
  exact (hsub.eq_of_length ((List.mergeSort_perm l _).filter _).length_eq.symm).symm

/-- The first one of a name is the same when all are sorted by name. -/
theorem find?_mergeSort (n : String) :
    (l.mergeSort (inOrder name)).find? (fun a => name a = n) = l.find? fun a => name a = n := by
  rw [← List.head?_filter, filter_mergeSort, List.head?_filter]

end Sorting

theorem wanted_eq (s : Store) (organization : String) (search : Option String) :
    wanted s organization search =
      (s.workspaces.values.filter fun w => Store.owner? w = some organization).filter fun w =>
        search.all fun text => Query.occursIn text.toList w.attributes.name.toList := by
  rw [List.filter_filter]
  refine List.filter_congr fun w _ => ?_
  rw [Bool.and_comm, Bool.decide_and]
  refine congrArg _ ?_
  cases search with
  | none => rfl
  | some text => simp [← Query.occursIn_iff]

/-- **What is answered is the list.** -/
theorem isListed_matching (s : Store) (organization : String) (search : Option String) :
    IsListed s organization search (matching s organization search) := by
  have hsorted := List.pairwise_mergeSort (inOrder_trans fun w : Resource Workspace => w.attributes.name)
    (inOrder_total _) (s.workspaces.values.filter fun w => Store.owner? w = some organization)
  refine ⟨?_, (hsorted.imp of_decide_eq_true).filter _, fun name => ?_⟩
  · rw [wanted_eq]
    exact (List.mergeSort_perm _ _).filter _
  · have hnamed := filter_mergeSort (fun w : Resource Workspace => w.attributes.name)
      (s.workspaces.values.filter fun w => Store.owner? w = some organization) name
    rw [wanted_eq, List.filter_comm, ← hnamed, List.filter_comm]
    rfl

end TerraformCloud.Simulator
