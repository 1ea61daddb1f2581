/-
  TerraformCloud/Proofs/Query/Additions.lean
  ==========================================
  **What a request asks for, when parameters are added to it again and again.**

  A request that parameters and options are added to, in any order and number, has below each
  key all values of that key in the order they were added (`addAll_of_flat`).  Where options
  among them are not flat, the whole is an error, wherever they stand (`addAll_of_not_flat`).

  As a query is determined by the values of its keys (`eq_of_valuesAt`), so is the URL of
  the request, and additions that share no key can change places.
-/
import TerraformCloud.Client
import TerraformCloud.Proofs.Query.Options
import TerraformCloud.Proofs.Simulator.Form

namespace TerraformCloud

open Json (Value)

namespace Query

/-! ## 1. What a query holds -/

/-- A query that has these texts below each key; a key without any is not there. -/
def Holds (q : Query) (texts : String → List String) : Prop :=
  ∀ key values, q.find? key = some values ↔ values = texts key ∧ values ≠ []

theorem Solid.holds {q : Query} (h : Solid q) {texts : String → List String}
    (htexts : ∀ key, valuesAt q key = texts key) : q.Holds texts := by
  intro key values
  rw [h.find?_eq_some_iff, htexts]

end Query

/-! ## 2. Additions -/

namespace ApiRequest

open Query (Solid valuesAt)

/-- What can be added to a request: parameters, none of which is silent, or options. -/
inductive Addition where
  | params (q : Query) (solid : Solid q)
  | options (options : Value)

namespace Addition

def apply (r : ApiRequest) : Addition → Except ApiError ApiRequest
  | params q _ => .ok (r.withParams q)
  | options v => r.withOptions v

def IsFlat : Addition → Prop
  | params _ _ => True
  | options v => Query.Flat v

instance : DecidablePred IsFlat
  | params _ _ => .isTrue trivial
  | options v => inferInstanceAs (Decidable (Query.Flat v))

/-- The values that an addition has for a key. -/
def texts (key : String) : Addition → List String
  | params q _ => valuesAt q key
  | options v => Query.textsAt v key

theorem apply_of_flat {a : Addition} (h : a.IsFlat) :
    ∃ q, Solid q ∧ (∀ key, valuesAt q key = a.texts key) ∧
      ∀ r, a.apply r = .ok (r.withParams q) := by
  cases a with
  | params q solid => exact ⟨q, solid, fun _ => rfl, fun _ => rfl⟩
  | options v =>
    obtain ⟨a, ha, hadded⟩ := Query.ofOptions_of_flat h
    refine ⟨a.query, Query.solid_query a, fun key => ?_, fun r => ?_⟩
    · rw [Query.valuesAt_query, hadded]
      rfl
    · rw [apply, withOptions, ha]

theorem apply_of_not_flat {a : Addition} (h : ¬a.IsFlat) (r : ApiRequest) :
    ∃ e, a.apply r = .error (.invalidQuery e) := by
  cases a with
  | params => exact absurd trivial h
  | options v =>
    obtain ⟨e, he⟩ := Query.ofOptions_of_not_flat h
    exact ⟨e, by rw [apply, withOptions, he]⟩

end Addition

/-- The values that additions have for a key, one behind the other. -/
def textsOf (additions : List Addition) (key : String) : List String :=
  additions.flatMap (Addition.texts key)

/-- A request with all additions made, one after the other. -/
def addAll (r : ApiRequest) (additions : List Addition) : Except ApiError ApiRequest :=
  additions.foldlM Addition.apply r

theorem solid_empty : Solid .empty := Query.solid_query .empty

section AddAll

variable {r : ApiRequest} {additions : List Addition}

/-- **Flat additions are made one behind the other**, and change nothing but the parameters. -/
theorem addAll_of_flat (h : ∀ a ∈ additions, a.IsFlat) (solid : Solid r.query) :
    ∃ q, addAll r additions = .ok { r with query := q } ∧ Solid q ∧
      ∀ key, valuesAt q key = valuesAt r.query key ++ textsOf additions key := by
  induction additions generalizing r with
  | nil => exact ⟨r.query, rfl, solid, fun _ => (List.append_nil _).symm⟩
  | cons a additions ih =>
    obtain ⟨params, hsolid, htexts, happly⟩ := Addition.apply_of_flat (h a List.mem_cons_self)
    obtain ⟨q, hall, hq, hvalues⟩ := ih (r := r.withParams params)
      (fun b hb => h b (List.mem_cons_of_mem _ hb)) (Query.solid_extend solid hsolid)
    refine ⟨q, ?_, hq, fun key => ?_⟩
    · rw [addAll, List.foldlM_cons, happly]
      exact hall
    · rw [hvalues, withParams, Query.valuesAt_extend, htexts, textsOf, textsOf, List.flatMap_cons,
        List.append_assoc]

/-- **One addition that is not flat spoils all**, wherever it stands. -/
theorem addAll_of_not_flat (h : ∃ a ∈ additions, ¬a.IsFlat) :
    ∃ e, addAll r additions = .error (.invalidQuery e) := by
  induction additions generalizing r with
  | nil => simp at h
  | cons a additions ih =>
    rw [addAll, List.foldlM_cons]
    by_cases hfirst : a.IsFlat
    · obtain ⟨params, -, -, happly⟩ := Addition.apply_of_flat hfirst
      rw [happly]
      refine ih ?_
      obtain ⟨b, hmem, hb⟩ := h
      rcases List.mem_cons.1 hmem with rfl | hmem
      · exact absurd hfirst hb
      · exact ⟨b, hmem, hb⟩
    · obtain ⟨e, happly⟩ := Addition.apply_of_not_flat hfirst r
      rw [happly]
      exact ⟨e, rfl⟩

theorem flat_of_addAll {r' : ApiRequest} (h : addAll r additions = .ok r') :
    ∀ a ∈ additions, a.IsFlat := by
  by_contra hnot
  push Not at hnot
  obtain ⟨e, he⟩ := addAll_of_not_flat (r := r) hnot
  rw [he] at h
  cases h

/-- **Additions with the same values below each key come to the same.** -/
theorem addAll_congr {others : List Addition} (solid : Solid r.query)
    (hflat : (∀ a ∈ additions, a.IsFlat) ↔ ∀ a ∈ others, a.IsFlat)
    (htexts : ∀ key, textsOf additions key = textsOf others key) :
    (addAll r additions).toOption = (addAll r others).toOption := by
  by_cases h : ∀ a ∈ additions, a.IsFlat
  · obtain ⟨q, hall, hq, hvalues⟩ := addAll_of_flat h solid
    obtain ⟨q', hall', hq', hvalues'⟩ := addAll_of_flat (hflat.1 h) solid
    have heq : q = q' := Query.eq_of_valuesAt hq hq' fun key => by rw [hvalues, hvalues', htexts]
    rw [hall, hall', heq]
  · have h' := mt hflat.2 h
    push Not at h h'
    obtain ⟨e, he⟩ := addAll_of_not_flat (r := r) h
    obtain ⟨e', he'⟩ := addAll_of_not_flat (r := r) h'
    rw [he, he']
    rfl

theorem textsOf_swap {a b : Addition} {key : String} (front back : List Addition)
    (apart : a.texts key = [] ∨ b.texts key = []) :
    textsOf (front ++ a :: b :: back) key = textsOf (front ++ b :: a :: back) key := by
  rcases apart with h | h <;> simp [textsOf, h]

/-- Without parameters, a URL without a query is left as it is. -/
theorem url_query (own : r.address.query = none) :
    r.url.query = if r.query.encode = "" then none else some r.query.encode := by
  by_cases hempty : r.query.encode = ""
  · rw [if_pos hempty, url, if_pos (String.isEmpty_iff.2 hempty), own]
  · rw [if_neg hempty, url, if_neg (mt String.isEmpty_iff.1 hempty), Url.setQuery_encode]

/-- **The query of a URL comes from the values below each key.** -/
theorem url_query_congr {r other r' other' : ApiRequest} {additions others : List Addition}
    (fresh : r.query = .empty) (fresh' : other.query = .empty) (own : r.address.query = none)
    (own' : other.address.query = none) (h : addAll r additions = .ok r')
    (h' : addAll other others = .ok other') (htexts : textsOf additions = textsOf others) :
    r'.url.query = other'.url.query := by
  obtain ⟨q, hall, hq, hvalues⟩ := addAll_of_flat (flat_of_addAll h) (fresh ▸ solid_empty)
  obtain ⟨q', hall', hq', hvalues'⟩ := addAll_of_flat (flat_of_addAll h') (fresh' ▸ solid_empty)
  have heq : q = q' := Query.eq_of_valuesAt hq hq' fun key => by
    rw [hvalues, hvalues', fresh, fresh', htexts]
  rw [h] at hall
  rw [h'] at hall'
  cases hall
  cases hall'
  rw [url_query (by exact own), url_query (by exact own'), heq]

end AddAll

end ApiRequest

open ApiRequest (Addition addAll textsOf) in
/-- **Parameters are flattened and merged key by key.**  Options are taken exactly if they are
    flat.  Additions to a request come behind one another below each key, so those that share
    no key can change places, and nothing else about them shows in the URL. -/
theorem parameters_by_key :
    (∀ options : Value,
      (Query.Flat options →
        ∃ q, Query.ofOptions options = .ok q ∧ q.Holds (Query.textsAt options)) ∧
      (¬Query.Flat options → (∃ e, Query.ofOptions options = .error e) ∧
        ∀ r : ApiRequest, ∃ e, r.withOptions options = .error (.invalidQuery e))) ∧
    ∀ r : ApiRequest, r.query = .empty →
      (∀ additions, (∀ a ∈ additions, a.IsFlat) →
        ∃ q, addAll r additions = .ok { r with query := q } ∧ q.Holds (textsOf additions)) ∧
      (∀ additions, (∃ a ∈ additions, ¬a.IsFlat) →
        ∃ e, addAll r additions = .error (.invalidQuery e)) ∧
      (∀ front back a b, (∀ key, a.texts key = [] ∨ b.texts key = []) →
        (addAll r (front ++ a :: b :: back)).toOption =
          (addAll r (front ++ b :: a :: back)).toOption) ∧
      ∀ other r' other' additions others, other.query = .empty →
        r.address.query = none → other.address.query = none →
        addAll r additions = .ok r' → addAll other others = .ok other' →
        textsOf additions = textsOf others → r'.url.query = other'.url.query := by
  refine ⟨fun options => ⟨fun h => ?_, fun h => ⟨Query.ofOptions_of_not_flat h, ?_⟩⟩,
    fun r fresh => ?_⟩
  · obtain ⟨a, ha, hadded⟩ := Query.ofOptions_of_flat h
    exact ⟨a.query, ha, (Query.solid_query a).holds fun key => by rw [Query.valuesAt_query, hadded]⟩
  · exact Addition.apply_of_not_flat (a := .options options) h
  have solid : Query.Solid r.query := fresh ▸ ApiRequest.solid_empty
  refine ⟨fun additions h => ?_, fun additions => ApiRequest.addAll_of_not_flat,
    fun front back a b apart => ?_, fun other r' other' additions others fresh' own own' => ?_⟩
  · obtain ⟨q, hall, hq, hvalues⟩ := ApiRequest.addAll_of_flat h solid
    refine ⟨q, hall, hq.holds fun key => ?_⟩
    rw [hvalues, fresh]
    rfl
  · refine ApiRequest.addAll_congr solid ?_ fun key =>
      ApiRequest.textsOf_swap front back (apart key)
    have hperm : (front ++ a :: b :: back).Perm (front ++ b :: a :: back) :=
      (List.Perm.swap b a back).append_left front
    exact forall_congr' fun c => by rw [hperm.mem_iff]
  · exact ApiRequest.url_query_congr fresh fresh' own own'

section Example

open ApiRequest (Addition addAll textsOf)

/-- A list of workspaces is asked for. -/
def listRequest : ApiRequest :=
  .ofAddress .get
    ⟨"https", some ⟨"", "", .name "tfe.test", none⟩, .segments ["workspaces"], none, none⟩

def withOwner : Addition :=
  .options (.object [("search", .null), ("include", .array [.string "owner", .null])])

def withPage : Addition := .options (.object [("page", Value.nat 2)])

def withReadme : Addition :=
  .params (Query.Assembly.empty.append "include" "readme").query (Query.solid_query _)

/-- Options with a list in a list. -/
def nested : Value := .object [("tags", .array [.string "web", .array []]), ("page", Value.nat 2)]

theorem page_and_readme_change_places :
    (∃ q q', addAll listRequest [withOwner, withPage, withReadme] =
        .ok { listRequest with query := q } ∧
      addAll listRequest [withOwner, withReadme, withPage] = .ok { listRequest with query := q' } ∧
      q.find? "include" = some ["owner", "readme"] ∧ q.find? "search" = none ∧ q = q' ∧
      { listRequest with query := q }.url.query = { listRequest with query := q' }.url.query) ∧
    (∃ e, addAll listRequest [withPage, .options nested] = .error (.invalidQuery e)) ∧
    ∃ e, Query.ofOptions nested = .error e := by
  obtain ⟨hoptions, hrequests⟩ := parameters_by_key
  obtain ⟨hmerge, hrefuse, hswap, hurl⟩ := hrequests listRequest rfl
  have hapart (key : String) : withPage.texts key = [] ∨ withReadme.texts key = [] := by
    by_cases hkey : key = "page"
    · exact .inr (by rw [hkey]; decide +kernel)
    · exact .inl (by simp [withPage, Addition.texts, Query.textsAt, Keyed.ofList, hkey])
  obtain ⟨q, hall, hq⟩ := hmerge [withOwner, withPage, withReadme] (by decide +kernel)
  obtain ⟨q', hall', -⟩ := hmerge [withOwner, withReadme, withPage] (by decide +kernel)
  have hsame := hswap [withOwner] [] withPage withReadme hapart
  rw [List.singleton_append, List.singleton_append, hall, hall'] at hsame
  refine ⟨⟨q, q', hall, hall', (hq _ _).2 ⟨by decide +kernel, List.cons_ne_nil _ _⟩, ?_, ?_, ?_⟩,
    hrefuse _ ⟨.options nested, by simp, by decide +kernel⟩,
    ((hoptions nested).2 (by decide +kernel)).1⟩
  · cases hsearch : q.find? "search" with
    | none => rfl
    | some values =>
      obtain ⟨rfl, hne⟩ := (hq _ _).1 hsearch
      exact absurd (by decide +kernel) hne
  · exact congrArg ApiRequest.query (Option.some.inj hsame)
  · exact hurl _ _ _ _ _ rfl rfl rfl hall hall' (funext fun key =>
      ApiRequest.textsOf_swap [withOwner] [] (hapart key))

end Example

end TerraformCloud
