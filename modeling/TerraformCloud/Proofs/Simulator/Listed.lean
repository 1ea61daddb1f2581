/-
  TerraformCloud/Proofs/Simulator/Listed.lean
  ===========================================
  **Lists tell nothing but what is kept.**

  A workspace that is kept is in the list of its organization once (`Sound.filter_listed`).
  The other way round, whatever comes back from a list of workspaces is kept, whoever asks
  for it, and for whichever organization: a dot leads to the organization of the name
  `workspaces`, or nowhere, and neither is read as a list (`errand_of_list`).  The same
  holds of what a walk collects (`Caller.kept_of_collect`).
-/
import TerraformCloud.Proofs.Simulator.Served

namespace TerraformCloud.Simulator

variable {s : Store} {x : Caller} {organization : String}

/-! ## 1. What is kept is listed -/

/-- **A workspace is listed once**, where it is searched for. -/
theorem Sound.filter_listed (h : Sound s) {w : Resource Workspace} (hstored : s.workspaces.find? w.id = some w)
    (howner : Store.owner? w = some organization) {search : Option String}
    (hsearch : ∀ text ∈ search, text.toList <:+: w.attributes.name.toList) {all : List (Resource Workspace)}
    (hall : IsListed s organization search all) : all.filter (fun v => v.id = w.id) = [w] := by
  have hvalues : s.workspaces.values.filter (fun v => v.id = w.id) = [w] := by
    have hkeys : ∀ e ∈ s.workspaces.entries,
        ((fun v => decide (v.id = w.id)) ∘ fun e : String × Resource Workspace => e.2) e =
          decide (e.1 = w.id) := by
      rintro ⟨key, v⟩ he
      rw [Function.comp, h.keyed key v ((Keyed.mem_entries_iff _ _ _).1 he)]
    rw [Keyed.values, List.filter_map, List.filter_congr hkeys, Keyed.filter_entries, hstored]
    rfl
  have hwanted : (wanted s organization search).filter (fun v => v.id = w.id) = [w] := by
    rw [wanted, List.filter_comm, hvalues]
    exact List.filter_cons_of_pos (by simpa [howner] using hsearch)
  -- one element has only one order
  have hperm := hall.perm.filter fun v => v.id = w.id
  rw [hwanted] at hperm
  exact List.perm_singleton.1 hperm

/-! ## 2. Organizations -/

/-- Organizations refer to nothing. -/
def Unrelated (s : Store) : Prop :=
  ∀ name o, s.organizations.find? name = some o → o.relationships = .empty

theorem Unrelated.withOrganization (h : Unrelated s) {o : Resource Organization}
    (ho : o.relationships = .empty) : Unrelated (s.withOrganization o) := by
  intro name o' ho'
  rcases Keyed.find?_insert_eq_some_iff.1 ho' with ⟨-, rfl⟩ | ⟨-, hbefore⟩
  · exact ho
  · exact h name o' hbefore

theorem IsFresh.unrelated (h : IsFresh s) : Unrelated s := by
  have hempty : Unrelated .empty := fun _ _ h => nomatch h
  rcases h.data with ⟨horganizations, -⟩ | ⟨horganizations, -⟩ <;> rw [Unrelated, horganizations]
  · exact hempty
  · exact (hempty.withOrganization rfl).withOrganization rfl

theorem Done.unrelated {now : Instant} {s s' : Store} {o : Order} {r : Http.Response} (h : Unrelated s)
    (hdone : Done now s o s' r) : Unrelated s' := by
  cases hdone with
  | organizationCreated given nonempty free => exact h.withOrganization rfl
  | organizationDeleted known =>
    exact fun name o ho => h name o (Keyed.find?_erase_eq_some_iff.1 ho).2
  | _ => exact h

theorem Calls.unrelated {allowed : Caller → Operation → Prop} {s s' : Store} (h : Calls allowed s s')
    (hs : Unrelated s) : Unrelated s' :=
  h.keeps hs fun hs _ _ hdone => hdone.unrelated hs

/-! ## 3. What is listed is kept -/

section Answers

variable {now : Instant} {req : Http.Request}

theorem status_settled {r : Http.Response} (h : Errand.of req = .settled r) :
    (handle now req s).2.status = r.status := by
  rw [handle_eq, h, Errand.run, Prod.map, status_asAsked]

theorem answer_of_success {q : Question} (h : Errand.of req = .question q) (hget : req.method = .get)
    (hsuccess : Http.isSuccess (handle now req s).2.status = true) :
    (handle now req s).2 = q.answer s ∧ (q.answer s).status = 200 := by
  have hget' : ∀ r, asAsked req.method r = r := by
    intro r
    rw [hget]
    rfl
  rw [handle_of_question h, hget'] at hsuccess ⊢
  by_cases hcaller : isAuthorized s req.headers = true
  · rw [if_pos hcaller] at hsuccess ⊢
    refine ⟨rfl, ?_⟩
    rcases status_answer s q with hstatus | hstatus
    · exact hstatus
    · dsimp only at hsuccess
      rw [hstatus] at hsuccess
      cases hsuccess
  · rw [if_neg hcaller] at hsuccess
    cases hsuccess

theorem body_of_read {kind : Kind} {answer : Http.Response} {page : Page (Resource kind.Attributes) Pagination}
    (hstatus : answer.status = 200)
    (hread : (checkResponse (arrivedResponse answer)).bind (Answer.read (.page kind)) = .ok page) :
    ∃ body, answer.body = some body ∧ decodeList kind.Attributes Pagination body = .ok page := by
  obtain ⟨status, fields, body⟩ := answer
  subst hstatus
  cases body with
  | none => cases hread
  | some body => exact ⟨body, rfl, hread⟩

/-- **What a list is understood as.**  With a dot for the organization, something else than a
    list is asked for, or nothing that is there. -/
theorem errand_of_list {c : Client} (hpath : c.apiUrl.path = .segments ["api", "v2", ""])
    (hscheme : c.apiUrl.scheme ≠ Url.fileScheme) {o : Workspaces.ListOptions} {r : ApiRequest}
    (hr : (Operation.workspaces (.list organization o)).request c = .ok r) {request : Http.Request}
    (hwire : r.wire c = .ok request) :
    (∃ q, Errand.of (arrivedRequest request) = .question (.workspaces organization q)) ∨
    Errand.of (arrivedRequest request) = .question (.organization "workspaces") ∨
    ∃ answer, Errand.of (arrivedRequest request) = .settled answer ∧
      Http.isSuccess answer.status = false := by
  have hget : (arrivedRequest request).method = .get := arrived_method hr hwire
  have hid : isIdentifier organization = true := (Operation.address_of_request hr).1 _ (.tail _ (.head _))
  obtain ⟨top, htop, htarget⟩ := Operation.landing hpath hscheme rfl hr
  have htops : top = ["workspaces", organization, "organizations", "v2", "api"] ∨
      top = ["workspaces", "organizations", "v2", "api"] ∨ top = ["workspaces", "v2", "api"] := by
    simpa [Operation.parts, Workspaces.Operation.parts, one, words, landings, or_assoc] using htop
  rw [← (arrived_of_wire hwire).path] at htarget
  -- the organization is a name, one dot or two
  rcases htops with rfl | rfl | rfl
  · rw [errand_at htarget (.workspaces (ne_empty_of_isIdentifier hid) (decode?_identifier hid))
      (by rw [hget]; rfl), Errand.understood, if_neg (by rw [hget]; decide), unescapeName_identifier hid]
    cases ListQuery.ofQuery? true (arrivedRequest request).url.query with
    | none => exact .inr (.inr ⟨_, rfl, rfl⟩)
    | some q => exact .inl ⟨q, rfl⟩
  · right
    left
    have hword : isIdentifier "workspaces" = true := by
      decide
    rw [errand_at htarget (.organization (ne_empty_of_isIdentifier hword) (decode?_identifier hword))
      (by rw [hget]; rfl), Errand.understood, if_neg (by rw [hget]; decide), unescapeName_identifier hword]
  · refine .inr (.inr ⟨bare 404, ?_, rfl⟩)
    rw [Errand.of, Endpoint.ofUrl, htarget]
    rfl

end Answers

/-- **What a list tells is kept.** -/
theorem Caller.kept_of_list (hx : x.Reaches) (hs : Sound x.store) (hu : Unrelated x.store)
    {o : Workspaces.ListOptions} {page : Page (Resource Workspace) Pagination}
    (hok : (x.perform (.workspaces (.list organization o))).1 = .ok page) :
    ∀ w ∈ page.items, x.store.workspaces.find? w.id = some w := by
  obtain ⟨r, request, hr, hwire, -, hsuccess, hread⟩ := perform_ok hok
  have hget : (arrivedRequest request).method = .get := arrived_method hr hwire
  rcases errand_of_list hx.path hx.scheme hr hwire with ⟨q, herrand⟩ | herrand | ⟨answer, herrand, hfailure⟩
  · obtain ⟨hanswer, hstatus⟩ := answer_of_success herrand hget hsuccess
    rw [← hanswer] at hstatus
    obtain ⟨body, hbody, hdecode⟩ := @body_of_read .workspace _ page hstatus hread
    intro w hw
    refine hs.stored_of_answer herrand hstatus ?_
    rw [Question.told, toldPage, hbody, Option.bind_some, hdecode]
    exact hw
  · obtain ⟨hanswer, hstatus⟩ := answer_of_success herrand hget hsuccess
    rw [hanswer] at hread
    obtain ⟨body, hbody, hdecode⟩ := @body_of_read .workspace _ page hstatus hread
    rw [Question.answer] at hbody hstatus
    cases hfound : x.store.organizations.find? "workspaces" with
    | none =>
      rw [hfound] at hstatus
      cases hstatus
    | some o =>
      -- a single organization cannot be read as a page
      have hrs : o.relationships.Recoverable 123 := by
        rw [hu _ _ hfound]
        intro e he
        cases he
      rw [hfound] at hbody
      have hsingle : body = (Body.ofData (@Resource.sent .organization o)).bytes :=
        (Option.some.inj hbody).symm
      rw [hsingle, @decodeList_ofData .organization _ hrs] at hdecode
      cases hdecode
  · rw [status_settled herrand, hfailure] at hsuccess
    cases hsuccess

theorem Caller.perform_get {op : Operation} (hget : op.method = .get) : (x.perform op).2 = x.store := by
  cases hr : op.request x.client with
  | error e =>
    rw [perform, Operation.perform, hr]
    rfl
  | ok r =>
    rw [x.perform_of_request hr]
    exact x.send_get ((op.method_of_request hr).trans hget)

/-- **What a walk tells is kept**, and nothing is changed by it. -/
theorem Caller.kept_of_collect (hx : x.Reaches) (hs : Sound x.store) (hu : Unrelated x.store)
    (o : Workspaces.ListOptions) :
    (x.collect .workspace (.workspaces organization o)).2 = x.store ∧
      ∀ all, (x.collect .workspace (.workspaces organization o)).1 = .ok all →
        ∀ w ∈ all, x.store.workspaces.find? w.id = some w := by
  have hpages : ∀ number (w : World Store), w.peer = x.store →
      (Listing.fetch x.line x.client .workspace (Walk.at_ (.workspaces organization o) number) w).2.peer =
        x.store ∧
      ∀ page, (Listing.fetch x.line x.client .workspace (Walk.at_ (.workspaces organization o) number) w).1 =
        .ok page → ∀ v ∈ page.items, x.store.workspaces.find? v.id = some v := by
    intro number w hw
    -- a page is what the caller would get who is at this point of the walk
    let y : Caller := { x with world := w }
    have hy : y.store = x.store := hw
    let o' : Workspaces.ListOptions := Paginated.withPage o
      ⟨some (UInt32.ofNat number), some ((Paginated.page o).size.getD Walk.defaultSize)⟩
    have hstill : (y.perform (.workspaces (.list organization o'))).2 = y.store := y.perform_get rfl
    have hkept : ∀ page, (y.perform (.workspaces (.list organization o'))).1 = .ok page →
        ∀ v ∈ page.items, y.store.workspaces.find? v.id = some v :=
      fun page => y.kept_of_list ⟨hx.path, hx.scheme⟩ (hy ▸ hs) (hy ▸ hu)
    rw [hy] at hstill hkept
    exact ⟨hstill, hkept⟩
  exact Walk.collectFrom_forall hpages 1 (List.forall_mem_nil _) rfl

end TerraformCloud.Simulator
