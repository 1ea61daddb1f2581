/-
  TerraformCloud/Proofs/Simulator/Served.lean
  ===========================================
  **Callers who are let in get what they ask for.**

  What is asked for without dots arrives as the question that it is, and what is answered
  is read as it was given.  So whoever is let in reads a workspace by its name or by its id
  as it is kept, or reads that it is not there, and collects the list of an organization as
  it is, if it is short enough for a walk.  All of this leaves the service as it is, and
  all of it is for requests that can be delivered.

  Orders arrive as they are meant, too.  A caller who is told that something was created or
  deleted may rely on it (`Caller.created`, `Caller.deleted`), and whoever is let in is not
  refused without a reason (`Caller.IsServed.create`, `Caller.IsServed.delete`).
-/
import TerraformCloud.Proofs.Simulator.Locks
import TerraformCloud.Proofs.Simulator.Understanding
import TerraformCloud.Proofs.Walk.Simulated

namespace TerraformCloud

/-! ## 1. Requests that are made -/

namespace Operation

variable {c : Client} {op : Operation}

theorem exists_request (hpath : c.apiUrl.path = .segments ["api", "v2", ""]) (hbase : op.base = .api)
    {call : Call} (hcall : op.call = .ok call) {params : Query}
    (hparams : Query.ofOptions call.options = .ok params) : ∃ r, op.request c = .ok r := by
  obtain ⟨u, -, hrequest⟩ := exists_address hpath hcall ((op.follows call hcall).1.trans hbase) hparams
  exact ⟨_, hrequest⟩

theorem authenticated_of_request {r : ApiRequest} (hr : op.request c = .ok r) : r.authenticated = true := by
  obtain ⟨call, -, hrequest⟩ := ok_of_bind hr
  obtain ⟨u, params, -, -, rfl⟩ := Call.request_eq_ok_iff.1 hrequest
  rfl

end Operation

namespace Simulator

/-- An identifier that is no dot. -/
structure IsName (t : String) : Prop where
  identifier : isIdentifier t = true
  noDots : t ≠ "." ∧ t ≠ ".."

theorem IsName.captured {t : String} (h : IsName t) :
    t ≠ "" ∧ Percent.decode? t = some t ∧ unescapeName t = t :=
  ⟨ne_empty_of_isIdentifier h.identifier, decode?_identifier h.identifier,
    unescapeName_identifier h.identifier⟩

theorem isName_workspaceId (n : Nat) : IsName (workspaceId n) := by
  have htext := toList_workspaceId n
  have hother : ∀ t : String, ¬"ws-".toList <+: t.toList → workspaceId n ≠ t := by
    rintro t hprefix rfl
    exact hprefix ⟨_, htext.symm⟩
  constructor
  · have hchars : ∀ c ∈ (workspaceId n).toList, isIdentifierChar c = true := by
      intro c hc
      rw [htext, List.mem_append] at hc
      rcases hc with hword | hnumber
      · exact List.all_eq_true.1 (show "ws-".toList.all isIdentifierChar = true by decide) c hword
      · have hdigit : c.isDigit = true := by
          rcases List.mem_append.1 hnumber with hzero | hdigit
          · rw [List.eq_of_mem_replicate hzero]
            rfl
          · exact isDigit_of_mem hdigit
        simp [isIdentifierChar, Char.isAlphanum, hdigit]
    simp only [isIdentifier, Bool.and_eq_true, List.all_eq_true]
    exact ⟨by simpa using hother "" (by decide), hchars⟩
  · exact ⟨hother "." (by decide), hother ".." (by decide)⟩

/-- What the errand of a request is at an endpoint that understands the method. -/
theorem errand_at {req : Http.Request} {parts : List String} {e : Endpoint}
    (hpath : req.url.path = .segments parts) (hat : At parts e)
    (hmethod : e.methods.contains req.method = true) : Errand.of req = Errand.understood req e := by
  rw [Errand.of, ofUrl_eq_endpoint_iff.2 ⟨parts, hpath, hat⟩]
  dsimp only
  rw [Errand.allowed, if_pos hmethod]

/-- With names in its path, a request arrives on its route. -/
theorem arrived_path {c : Client} {op : Operation} {r : ApiRequest} (hr : op.request c = .ok r)
    {request : Http.Request} (hwire : r.wire c = .ok request)
    (hpath : c.apiUrl.path = .segments ["api", "v2", ""]) (hbase : op.base = .api)
    (hnames : ∀ t ∈ op.identifiers, IsName t) :
    (arrivedRequest request).url.path = .segments (["api", "v2"] ++ op.parts.map Part.text) := by
  have hfront : Url.IsBase (c.baseUrl op.base) ["api", "v2"] := by
    rw [hbase]
    exact isBase_api hpath
  have hdots : op.NoDots := fun t ht => (hnames t ht).noDots
  exact (arrived_of_wire hwire).path.trans ((Operation.path_of_base hr hfront).2 hdots)

theorem arrived_method {c : Client} {op : Operation} {r : ApiRequest} (hr : op.request c = .ok r)
    {request : Http.Request} (hwire : r.wire c = .ok request) :
    (arrivedRequest request).method = op.method :=
  (arrived_of_wire hwire).method.trans (op.method_of_request hr)

/-! ## 2. Questions -/

namespace Caller

/-- The secret of a caller can be sent, and arrives as it is asked for. -/
structure IsKnown (x : Caller) : Prop where
  sendable : Http.isFieldValue x.client.token = true
  known : isKnown x.store x.client.token = true

/-- A caller who is let in, and has not given up. -/
structure IsServed (x : Caller) : Prop extends Reaches x, IsKnown x where
  goes : x.line.cancelled x.world = false

variable {x : Caller}

theorem IsServed.isLetIn (h : x.IsServed) : IsLetIn x.store x.client := ⟨h.path, h.sendable, h.known⟩

/-- What a caller asks for who is served is known to come from there. -/
theorem IsServed.exists_wire (h : x.IsServed) {op : Operation} {r : ApiRequest}
    (hr : op.request x.client = .ok r) : ∃ request, r.wire x.client = .ok request ∧
      isAuthorized x.store (arrivedRequest request).headers = true := by
  have hcaller := Operation.authenticated_of_request hr
  obtain ⟨headers, hheaders, -⟩ := ApiRequest.headers_authenticated hcaller h.sendable
  have hwire : r.wire x.client = .ok (.of r.method r.url.withoutFragment headers
      (r.sentBody.map Body.bytes)) := by
    rw [ApiRequest.wire, hheaders]
    rfl
  refine ⟨_, hwire, ?_⟩
  rw [(arrived_of_wire hwire).caller hcaller]
  exact h.known

theorem IsServed.perform_eq (h : x.IsServed) {op : Operation}
    (hdeliverable : op.isDeliverable x.client = true) {r : ApiRequest}
    (hr : op.request x.client = .ok r) : ∃ request, r.wire x.client = .ok request ∧
      isAuthorized x.store (arrivedRequest request).headers = true ∧
      x.perform op = ((checkResponse (arrivedResponse
          (handle x.now (arrivedRequest request) x.store).2)).bind op.answer.read,
        (handle x.now (arrivedRequest request) x.store).1) := by
  obtain ⟨request, hwire, hauthorized⟩ := h.exists_wire hr
  refine ⟨request, hwire, hauthorized, ?_⟩
  rw [x.perform_of_request hr,
    x.send_of_wire hwire (Operation.deliverable_of_wire hdeliverable hr hwire) h.goes]

/-- **A question is answered.** -/
theorem IsServed.perform_question (h : x.IsServed) {op : Operation}
    (hdeliverable : op.isDeliverable x.client = true) {call : Call} {params : Query}
    (hcall : op.call = .ok call) (hparams : Query.ofOptions call.options = .ok params)
    (hbase : op.base = .api) (hnames : ∀ t ∈ op.identifiers, IsName t) (hget : op.method = .get)
    {q : Question}
    (hasks : ∀ req : Http.Request, req.method = .get →
      req.url.path = .segments (["api", "v2"] ++ op.parts.map Part.text) → Errand.of req = .question q) :
    x.perform op = ((checkResponse (arrivedResponse (q.answer x.store))).bind op.answer.read, x.store) := by
  obtain ⟨r, hr⟩ := Operation.exists_request h.path hbase hcall hparams
  obtain ⟨request, hwire, hauthorized, hperform⟩ := h.perform_eq hdeliverable hr
  have hmethod : (arrivedRequest request).method = .get := (arrived_method hr hwire).trans hget
  have hquestion := hasks _ hmethod (arrived_path hr hwire h.path hbase hnames)
  have hanswer : handle x.now (arrivedRequest request) x.store = (x.store, q.answer x.store) := by
    rw [handle_of_question hquestion, if_pos hauthorized, hmethod]
    rfl
  rw [hperform, hanswer]

end Caller

/-! ## 3. Reading -/

/-- **A resource is read as it was answered.** -/
theorem read_single {kind : Kind} {status : Http.Status}
    (hstatus : Http.isSuccess status = true ∧ isBodiless status = false) {r : Resource kind.Attributes}
    (hrs : r.relationships.Recoverable 123) :
    (checkResponse (arrivedResponse (single status r))).bind (Answer.read (.resource kind)) = .ok r := by
  have hbytes : bodyOf (arrivedResponse (single status r)) = .ok (Body.ofData r.sent).bytes := by
    have hbody : (arrivedResponse (single status r)).body = some (Body.ofData r.sent).bytes := by
      simp only [arrivedResponse, body_single]
      rw [show (single status r).status = status from rfl, hstatus.2, if_neg Bool.false_ne_true]
    rw [bodyOf, hbody]
  have hcheck : checkResponse (arrivedResponse (single status r)) = .ok (arrivedResponse (single status r)) :=
    if_pos hstatus.1
  have hread : Answer.read (.resource kind) (arrivedResponse (single status r)) =
      (bodyOf (arrivedResponse (single status r))).bind (decodeOne kind.Attributes) := rfl
  rw [hcheck, Except.bind, hread, hbytes, Except.bind, decodeOne_ofData hrs]

theorem read_newWorkspace (now : Instant) (id organization name : String)
    (fields : newWorkspaceFields.Record) :
    (checkResponse (arrivedResponse (single 201 (newWorkspace now id organization name fields)))).bind
      (Answer.read (.resource .workspace)) = .ok (newWorkspace now id organization name fields) :=
  @read_single .workspace 201 ⟨rfl, rfl⟩ (newWorkspace now id organization name fields)
    (recoverable_ownedBy organization 123)

theorem read_found {s : Store} (hs : Sound s) {y : Option (Resource Workspace)}
    (hy : ∀ w, y = some w → ∃ id, s.workspaces.find? id = some w) :
    (checkResponse (arrivedResponse (found s y).2)).bind (Answer.read (.resource .workspace)) =
      y.elim (.error .resourceNotFound) .ok := by
  cases y with
  | none => rfl
  | some w =>
    obtain ⟨id, hstored⟩ := hy w rfl
    have hfound : (found s (some w)).2 = @single (Kind.Attributes .workspace) _ 200 w := rfl
    have hread := @read_single .workspace 200 ⟨rfl, rfl⟩ w (hs.recoverable hstored 123)
    rw [hfound]
    exact hread

theorem call_of_read {organization name : String} (horganization : IsName organization)
    (hname : IsName name) (included : List String) :
    (Operation.workspaces (.read organization name included)).call =
      .ok (.select ["organizations", organization, "workspaces", name]
        (Workspaces.includeParams included)) := by
  change (do return Call.select (← Workspaces.namedPath organization name) _) = _
  rw [Workspaces.namedPath, listPath_eq horganization.identifier, require, hname.identifier]
  rfl

namespace Caller.IsServed

variable {x : Caller} {organization name : String}

theorem read (h : x.IsServed) (hs : Sound x.store) (horganization : IsName organization)
    (hname : IsName name) {included : List String}
    (hdeliverable : (Operation.workspaces (.read organization name included)).isDeliverable x.client = true) :
    x.perform (.workspaces (.read organization name included)) =
      ((x.store.findWorkspace? organization name).elim (.error .resourceNotFound) .ok, x.store) := by
  have hkeys : (([textsMember "include" included] : List (String × Json.Value)).map (·.1)).Nodup :=
    List.nodup_singleton _
  obtain ⟨a, hparams, -⟩ := Query.valuesAt_ofOptions hkeys fun m hm => by
    rw [List.mem_singleton.1 hm]
    exact ⟨_, Query.fieldValues_texts _ _⟩
  have hcall := call_of_read horganization hname included
  have hasks : ∀ req : Http.Request, req.method = .get →
      req.url.path = .segments ["api", "v2", "organizations", organization, "workspaces", name] →
      Errand.of req = .question (.workspace organization name) := by
    intro req hget hpath
    obtain ⟨hne, hdecode, hplain⟩ := horganization.captured
    obtain ⟨hne', hdecode', hplain'⟩ := hname.captured
    rw [errand_at hpath (.workspaceByName ⟨hne, hne'⟩ ⟨hdecode, hdecode'⟩) (by rw [hget]; rfl),
      Errand.understood, hget, if_neg (by decide), hplain, hplain']
  have hnames : ∀ t ∈ [organization, name], IsName t := by
    simp [horganization, hname]
  rw [h.perform_question hdeliverable hcall hparams rfl hnames rfl hasks]
  exact congrArg (·, x.store) (read_found hs fun w hw => (Store.findWorkspace?_some hw).1)

/-- **By a name that is too long nothing is read.** -/
theorem read_too_long (h : x.IsServed) (horganization : IsName organization) (hname : IsName name)
    (hlong : longestUrl < (Utf8.encode name).length) (hretry : x.client.retry.retryServerErrors = false) :
    x.perform (.workspaces (.read organization name [])) = (.error .connection, x.store) := by
  have hnames : ∀ t ∈ [organization, name], IsName t := by
    simp [horganization, hname]
  have hparams : Query.ofOptions (Workspaces.includeParams []) = .ok .empty := rfl
  obtain ⟨r, hr⟩ := Operation.exists_request h.path rfl (call_of_read horganization hname []) hparams
  obtain ⟨request, hwire, -⟩ := h.exists_wire hr
  have hpath : (arrivedRequest request).url.path =
      .segments ["api", "v2", "organizations", organization, "workspaces", name] :=
    arrived_path hr hwire h.path rfl hnames
  have hsize : (Utf8.encode name).length ≤ request.url.size := Url.length_segment_le hpath (by simp)
  have hlost := Http.Request.undeliverable_of_long (Nat.lt_of_lt_of_le hlong hsize)
  have hsend := Rehearsal.send_of_undeliverable hwire hlost h.goes hretry
  rw [x.perform_of_request hr, Caller.send, hsend]
  rfl

theorem readById (h : x.IsServed) (hs : Sound x.store) {id : String} (hid : IsName id)
    (hdeliverable : (Operation.workspaces (.readById id)).isDeliverable x.client = true) :
    x.perform (.workspaces (.readById id)) =
      ((x.store.workspaces.find? id).elim (.error .resourceNotFound) .ok, x.store) := by
  have hcall : (Operation.workspaces (.readById id)).call = .ok (.get ["workspaces", id]) := by
    change (do return Call.get (← Workspaces.idPath id)) = _
    rw [Workspaces.idPath, require, hid.identifier]
    rfl
  have hasks : ∀ req : Http.Request, req.method = .get →
      req.url.path = .segments ["api", "v2", "workspaces", id] →
      Errand.of req = .question (.workspaceById id) := by
    intro req hget hpath
    obtain ⟨hne, hdecode, -⟩ := hid.captured
    rw [errand_at hpath (.workspaceById hne hdecode) (by rw [hget]; rfl), Errand.understood]
  have hnames : ∀ t ∈ [id], IsName t := by
    simp [hid]
  have hparams : Query.ofOptions (Call.get ["workspaces", id]).options = .ok .empty := rfl
  rw [h.perform_question hdeliverable hcall hparams rfl hnames rfl hasks]
  exact congrArg (·, x.store) (read_found hs fun w hw => ⟨id, hw⟩)

/-- **Collecting a list**, if it is short enough for a walk. -/
theorem collect (h : x.IsServed) (hs : Sound x.store) (horganization : IsName organization)
    (hknown : (x.store.organizations.find? organization).isSome = true) {o : Workspaces.ListOptions}
    (hwalk : Listing.CanWalk x.client organization o (wanted x.store organization o.search).length)
    (hshort : (wanted x.store organization o.search).length ≤ 1000 * Listing.pageSize o) :
    ∃ all, x.collect .workspace (.workspaces organization o) = (.ok all, x.store) ∧
      IsListed x.store organization o.search all := by
  have hlisted := isListed_matching x.store organization o.search
  rw [← hlisted.perm.length_eq] at hshort hwalk
  have hsize : Listing.pageSize o ≤ 100 := Nat.max_le.2 ⟨by decide, Nat.min_le_left _ _⟩
  have hrecoverable : ∀ w ∈ matching x.store organization o.search, w.relationships.Recoverable 122 := by
    intro w hw
    obtain ⟨id, hstored⟩ := exists_of_mem_matching hw
    exact hs.recoverable hstored 122
  have hlists : Walk.Lists (Listing.fetch x.line x.client .workspace) (.workspaces organization o)
      (matching x.store organization o.search) (Listing.pageSize o)
      fun w => w.peer = x.store ∧ x.line.cancelled w = false :=
    Listing.lists_told h.isLetIn ⟨horganization.identifier, horganization.noDots, hknown⟩ o (by omega)
      hrecoverable hwalk
  obtain ⟨w', hcollect, hw', -⟩ := Walk.collectAll_lists hlists (Nat.le_max_left _ _) ⟨rfl, h.goes⟩
  have hall : (matching x.store organization o.search).take (Walk.lastPage * Listing.pageSize o) = _ :=
    List.take_of_length_le hshort
  rw [hall] at hcollect
  refine ⟨_, ?_, hlisted⟩
  rw [Caller.collect, Listing.collect, hcollect, Prod.map, hw']
  rfl

end Caller.IsServed

/-! ## 4. Orders -/

section Orders

variable {x : Caller} {op : Operation} {organization name : String}

theorem Caller.perform_ok {v : op.answer.Value} (hok : (x.perform op).1 = .ok v) :
    ∃ r request, op.request x.client = .ok r ∧ r.wire x.client = .ok request ∧
      (x.perform op).2 = (handle x.now (arrivedRequest request) x.store).1 ∧
      Http.isSuccess (handle x.now (arrivedRequest request) x.store).2.status = true ∧
      (checkResponse (arrivedResponse (handle x.now (arrivedRequest request) x.store).2)).bind
        op.answer.read = .ok v := by
  rcases x.perform_cases op with ⟨r, request, hr, hwire, -, hperform⟩ | ⟨e, hperform⟩
  · rw [hperform] at hok ⊢
    refine ⟨r, request, hr, hwire, rfl, ?_, hok⟩
    dsimp only at hok
    unfold checkResponse at hok
    split at hok
    · next hsuccess => exact hsuccess
    · cases hok
  · rw [hperform] at hok
    cases hok

/-- **An order that is answered with success was carried out**, for a caller who is known. -/
theorem done_of_success {now : Instant} {req : Http.Request} {s : Store} {o : Order}
    (horder : Errand.of req = .order o) (hsuccess : Http.isSuccess (handle now req s).2.status = true) :
    isAuthorized s req.headers = true ∧ Done now s o (handle now req s).1 (handle now req s).2 := by
  rw [handle_of_order horder, guarded] at hsuccess ⊢
  by_cases hcaller : isAuthorized s req.headers = true
  · rw [if_pos hcaller] at hsuccess ⊢
    refine ⟨hcaller, ?_⟩
    rcases obey_cases now s o with hdone | hrefused
    · exact hdone
    · obtain ⟨status, title, detail, hresult, hstatus, -⟩ := hrefused.told
      have hlarge : ¬status < 400 := Nat.not_lt.2 hstatus
      rw [hresult] at hsuccess
      change (decide (200 ≤ status) && decide (status < 400)) = true at hsuccess
      rw [decide_eq_false hlarge, Bool.and_false] at hsuccess
      cases hsuccess
  · rw [if_neg hcaller] at hsuccess
    cases hsuccess

theorem order_of_create {c : Client} (hpath : c.apiUrl.path = .segments ["api", "v2", ""])
    (horganization : IsName organization) {o : Workspaces.NewWorkspace} {r : ApiRequest}
    (hr : (Operation.workspaces (.create organization o)).request c = .ok r) {request : Http.Request}
    (hwire : r.wire c = .ok request) :
    Errand.of (arrivedRequest request) = .order (.createWorkspace organization o.fields) := by
  have hmethod : (arrivedRequest request).method = .post := arrived_method hr hwire
  have hnames : ∀ t ∈ [organization], IsName t := by
    simp [horganization]
  obtain ⟨hne, hdecode, hplain⟩ := horganization.captured
  rw [errand_at (arrived_path hr hwire hpath rfl hnames) (.workspaces hne hdecode) (by rw [hmethod]; rfl),
    Errand.understood, if_pos hmethod, incoming_of_create hr hwire, hplain]

theorem order_of_delete {c : Client} (hpath : c.apiUrl.path = .segments ["api", "v2", ""])
    (horganization : IsName organization) (hname : IsName name) {r : ApiRequest}
    (hr : (Operation.workspaces (.delete organization name)).request c = .ok r) {request : Http.Request}
    (hwire : r.wire c = .ok request) :
    Errand.of (arrivedRequest request) = .order (.deleteWorkspace organization name) := by
  have hmethod : (arrivedRequest request).method = .delete := arrived_method hr hwire
  have hnames : ∀ t ∈ [organization, name], IsName t := by
    simp [horganization, hname]
  obtain ⟨hne, hdecode, hplain⟩ := horganization.captured
  obtain ⟨hne', hdecode', hplain'⟩ := hname.captured
  rw [errand_at (arrived_path hr hwire hpath rfl hnames) (.workspaceByName ⟨hne, hne'⟩ ⟨hdecode, hdecode'⟩)
    (by rw [hmethod]; rfl), Errand.understood, if_pos hmethod, hplain, hplain']

/-- **A call that is understood as an order and succeeds was obeyed**, and its caller is
    known. -/
theorem Caller.obeyed {v : op.answer.Value} (hok : (x.perform op).1 = .ok v) {o : Order}
    (horder : ∀ r request, op.request x.client = .ok r → r.wire x.client = .ok request →
      Errand.of (arrivedRequest request) = .order o) :
    x.IsKnown ∧ ∃ answer, Done x.now x.store o (x.perform op).2 answer ∧
      (checkResponse (arrivedResponse answer)).bind op.answer.read = .ok v := by
  obtain ⟨r, request, hr, hwire, hafter, hsuccess, hread⟩ := perform_ok hok
  obtain ⟨hauthorized, hdone⟩ := done_of_success (horder r request hr hwire) hsuccess
  have hcaller := Operation.authenticated_of_request hr
  rw [(arrived_of_wire hwire).caller hcaller] at hauthorized
  obtain ⟨headers, hheaders, -⟩ := r.wire_eq hwire
  refine ⟨⟨isFieldValue_of_headers hheaders hcaller, hauthorized⟩, _, ?_, hread⟩
  rw [hafter]
  exact hdone

/-- **What a caller is told to be created was created.** -/
theorem Caller.created (hx : x.Reaches) (horganization : IsName organization)
    {o : Workspaces.NewWorkspace} {w : Resource Workspace}
    (hok : (x.perform (.workspaces (.create organization o))).1 = .ok w) :
    x.IsKnown ∧ ∃ name, o.name = some name ∧
      w = newWorkspace x.now (workspaceId x.store.nextNumber) organization name o.fields ∧
      (x.perform (.workspaces (.create organization o))).2 =
        Store.withWorkspace { x.store with nextNumber := x.store.nextNumber + 1 } w := by
  obtain ⟨hknown, answer, hdone, hread⟩ :=
    obeyed hok fun r request hr hwire => order_of_create hx.path horganization hr hwire
  refine ⟨hknown, ?_⟩
  generalize (x.perform (.workspaces (.create organization o))).2 = s' at hdone
  cases hdone with
  | @workspaceCreated _ name _ known given nonempty free =>
    have htold := read_newWorkspace x.now (workspaceId x.store.nextNumber) organization name o.fields
    obtain rfl := Except.ok.inj (hread.symm.trans htold)
    exact ⟨name, given, rfl, rfl⟩

/-- **What a caller is told to be deleted was deleted.** -/
theorem Caller.deleted (hx : x.Reaches) (horganization : IsName organization) (hname : IsName name)
    (hok : (x.perform (.workspaces (.delete organization name))).1 = .ok ()) :
    ∃ answer, Done x.now x.store (.deleteWorkspace organization name)
      (x.perform (.workspaces (.delete organization name))).2 answer := by
  obtain ⟨-, answer, hdone, -⟩ :=
    obeyed hok fun r request hr hwire => order_of_delete hx.path horganization hname hr hwire
  exact ⟨answer, hdone⟩

theorem exists_create_call (horganization : isIdentifier organization = true) {o : Workspaces.NewWorkspace}
    (hname : o.name = some name) (hidentifier : isIdentifier name = true) :
    ∃ body, (Operation.workspaces (.create organization o)).call =
      .ok ⟨.post, .api, ["organizations", organization, "workspaces"], .null, some body, none⟩ := by
  have hcheck : o.check = .ok () := by
    have hpresent : isPresent o.name = true := by
      rw [hname]
      simpa [isPresent] using ne_empty_of_isIdentifier hidentifier
    rw [Workspaces.NewWorkspace.check, require, hpresent, require, hname, Option.any_some, hidentifier]
    rfl
  have hcall : (Operation.workspaces (.create organization o)).call =
      (Workspaces.listPath organization >>= fun path =>
        o.check >>= fun _ => Call.resource .post path o.draft) := rfl
  obtain ⟨body, hbody⟩ : ∃ body, Body.resource o.draft = .ok body := ⟨_, resource_draft hname⟩
  refine ⟨body, ?_⟩
  rw [hcall, listPath_eq horganization, hcheck]
  change Call.resource .post _ o.draft = _
  rw [Call.resource, hbody]
  rfl

/-- **A name that is free is given** to whoever asks for it. -/
theorem Caller.IsServed.create (h : x.IsServed) (horganization : IsName organization)
    (hknown : (x.store.organizations.find? organization).isSome = true) {o : Workspaces.NewWorkspace}
    (hname : o.name = some name) (hidentifier : isIdentifier name = true)
    (hdeliverable : (Operation.workspaces (.create organization o)).isDeliverable x.client = true)
    (hfree : x.store.findWorkspace? organization name = none) :
    (x.perform (.workspaces (.create organization o))).1 =
      .ok (newWorkspace x.now (workspaceId x.store.nextNumber) organization name o.fields) := by
  have hne := ne_empty_of_isIdentifier hidentifier
  obtain ⟨body, hcall⟩ := exists_create_call horganization.identifier hname hidentifier
  obtain ⟨r, hr⟩ := Operation.exists_request h.path rfl hcall rfl
  obtain ⟨request, hwire, hauthorized, hperform⟩ := h.perform_eq hdeliverable hr
  have hobey := obey_create x.now hknown (show o.fields.1 = some name from hname) hne hfree
  rw [hperform, handle_of_order (order_of_create h.path horganization hr hwire), guarded, if_pos hauthorized, hobey]
  dsimp only
  exact read_newWorkspace x.now (workspaceId x.store.nextNumber) organization name o.fields

/-- **What is there is deleted** for whoever asks for it. -/
theorem Caller.IsServed.delete (h : x.IsServed) (hs : Sound x.store) (horganization : IsName organization)
    (hname : IsName name)
    (hdeliverable : (Operation.workspaces (.delete organization name)).isDeliverable x.client = true)
    {w : Resource Workspace} (hfound : x.store.findWorkspace? organization name = some w) :
    (x.perform (.workspaces (.delete organization name))).1 = .ok () := by
  have hcall : (Operation.workspaces (.delete organization name)).call =
      .ok (.bare .delete ["organizations", organization, "workspaces", name]) := by
    change (do return Call.bare .delete (← Workspaces.namedPath organization name)) = _
    rw [Workspaces.namedPath, listPath_eq horganization.identifier, require, hname.identifier]
    rfl
  have hparams : Query.ofOptions (Call.bare .delete
      ["organizations", organization, "workspaces", name]).options = .ok .empty := rfl
  obtain ⟨r, hr⟩ := Operation.exists_request h.path rfl hcall hparams
  obtain ⟨request, hwire, hauthorized, hperform⟩ := h.perform_eq hdeliverable hr
  have hstored := (hs.findWorkspace?_eq_some_iff.1 hfound).1
  have hobey : (Order.deleteWorkspace organization name).obey x.now x.store =
      ({ x.store with workspaces := x.store.workspaces.erase w.id }, bare 204) := by
    simp only [Order.obey, Store.removeWorkspace, hfound, hstored]
  rw [hperform, handle_of_order (order_of_delete h.path horganization hname hr hwire), guarded,
    if_pos hauthorized, hobey]
  rfl

end Orders

end Simulator
end TerraformCloud
