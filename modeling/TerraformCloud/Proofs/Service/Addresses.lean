/-
  TerraformCloud/Proofs/Service/Addresses.lean
  ============================================
  **Where the requests of an operation go.**

  An operation follows its route (`Operation.follows`), a route consists of identifiers,
  and identifiers are found behind the base of the interface unless one of them is `.` or
  `..` (`Url.join_identifiers`).  Both are accepted as identifiers, and with one of them a
  request goes somewhere else: deleting the organization `..` deletes at the root of the
  interface.
-/
import TerraformCloud.Proofs.Sending.Trace
import TerraformCloud.Proofs.Service.Routes
import TerraformCloud.Proofs.Url.Join
import TerraformCloud.Rehearsal

namespace TerraformCloud

/-! ## 1. From calls to requests -/

theorem ApiRequest.url_path (r : ApiRequest) : r.url.path = r.address.path := by
  unfold ApiRequest.url
  dsimp only
  split <;> rfl

theorem Http.Request.of_method (method : Http.Method) (url : Url) (headers : Http.Headers)
    (body : Option Bytes) : (Http.Request.of method url headers body).method = method := by
  unfold Http.Request.of
  split <;> rfl

theorem Http.Request.of_path (method : Http.Method) (url : Url) (headers : Http.Headers)
    (body : Option Bytes) : (Http.Request.of method url headers body).url.path = url.path := by
  unfold Http.Request.of
  split <;> rfl

theorem Http.Request.of_query (method : Http.Method) (url : Url) (headers : Http.Headers)
    (body : Option Bytes) : (Http.Request.of method url headers body).url.query = url.query := by
  unfold Http.Request.of
  split <;> rfl

theorem Http.Request.of_body (method : Http.Method) (url : Url) (headers : Http.Headers)
    (body : Option Bytes) : (Http.Request.of method url headers body).body = body := by
  unfold Http.Request.of
  split <;> rfl

/-- What travels is the request with its headers. -/
theorem ApiRequest.wire_eq {c : Client} {r : ApiRequest} {request : Http.Request}
    (h : r.wire c = .ok request) : ∃ headers, r.headers c = .ok headers ∧
      request = .of r.method r.url.withoutFragment headers (r.sentBody.map Body.bytes) := by
  unfold ApiRequest.wire at h
  cases hheaders : r.headers c with
  | error e =>
    rw [hheaders] at h
    cases h
  | ok headers =>
    rw [hheaders] at h
    cases h
    exact ⟨headers, rfl, rfl⟩

theorem ApiRequest.wire_path {c : Client} {r : ApiRequest} {request : Http.Request}
    (h : r.wire c = .ok request) : request.url.path = r.address.path := by
  obtain ⟨headers, -, rfl⟩ := r.wire_eq h
  rw [← r.url_path]
  exact Http.Request.of_path _ _ _ _

/-- Every request travels if the token of the client fits into a header. -/
theorem ApiRequest.exists_wire {c : Client} (htoken : Http.isFieldValue ("Bearer " ++ c.token) = true)
    (r : ApiRequest) : ∃ request, r.wire c = .ok request ∧ request.method = r.method ∧
      request.body = r.sentBody.map Body.bytes := by
  have hheaders : ∃ headers, r.headers c = .ok headers := by
    rw [ApiRequest.headers, htoken, Bool.not_true, Bool.and_false]
    exact ⟨_, rfl⟩
  obtain ⟨headers, hheaders⟩ := hheaders
  refine ⟨_, by rw [ApiRequest.wire, hheaders]; rfl, ?_, ?_⟩
  · exact Http.Request.of_method _ _ _ _
  · exact Http.Request.of_body _ _ _ _

/-- **The request of a call**, where its path leads somewhere and its options are parameters. -/
theorem Call.request_eq_ok_iff {call : Call} {c : Client} {r : ApiRequest} :
    call.request c = .ok r ↔ ∃ u params, (c.baseUrl call.base).join call.path = .ok u ∧
      Query.ofOptions call.options = .ok params ∧
      r = ⟨call.method, u, Query.extend .empty params, call.body, call.accept, true⟩ := by
  have hchain : call.request c = (c.request call.base call.method call.path).bind fun r =>
      (r.withOptions call.options).bind fun r =>
        .ok { r with body := call.body, accept := call.accept } := rfl
  rw [hchain, Client.request]
  cases (c.baseUrl call.base).join call.path with
  | error e => simp [Except.bind]
  | ok u =>
    simp only [Except.bind, ApiRequest.withOptions]
    cases Query.ofOptions call.options with
    | error e => simp
    | ok params => simp [ApiRequest.withParams, ApiRequest.ofAddress, eq_comm]

/-- A request of a call has the address that the path of the call leads to. -/
theorem Call.request_address {call : Call} {c : Client} {r : ApiRequest}
    (h : call.request c = .ok r) : (c.baseUrl call.base).join call.path = .ok r.address := by
  obtain ⟨u, params, hu, -, rfl⟩ := Call.request_eq_ok_iff.1 h
  exact hu

theorem Call.path_of_identifiers {call : Call}
    (h : ∀ s ∈ call.segments, isIdentifier s = true) :
    call.path = "/".intercalate call.segments := by
  rw [Call.path, List.map_congr_left fun s hs => percentEncode_identifier (h s hs)]
  exact congrArg _ (List.map_id call.segments)

/-- The interfaces of a configured client are bases, or nothing is found behind them. -/
theorem Client.isBase {config : Config} {c : Client} (h : Client.ofConfig config = .ok c)
    (base : Base) : (∃ text, (c.baseUrl base).path = .rootless text) ∨
      ∃ front, Url.IsBase (c.baseUrl base) front := by
  unfold Client.ofConfig at h
  split at h
  · cases h
  · cases h
    cases base <;> exact Url.isBase_base _ _

theorem Client.retry_ofConfig {config : Config} {c : Client} (h : Client.ofConfig config = .ok c) :
    c.retry = config.retry := by
  unfold Client.ofConfig at h
  split at h <;> cases h
  rfl

/-- What is computed of the client of a configuration holds of the client. -/
theorem Client.holds_of_config {config : Config} {c : Client} (hclient : Client.ofConfig config = .ok c)
    {P : Client → Bool} (h : (Client.ofConfig config).toOption.all P = true) : P c = true := by
  rwa [hclient] at h

/-! ## 2. From operations to requests -/

namespace Operation

/-- No identifier in the path of an operation is a dot. -/
def NoDots (op : Operation) : Prop := ∀ id ∈ op.identifiers, id ≠ "." ∧ id ≠ ".."

/-- The words of a path are no dots, so only its identifiers can be. -/
theorem noDots_iff {op : Operation} (h : ValidParts op.parts) :
    NoDots op ↔ ∀ s ∈ op.parts.map Part.text, s ≠ "." ∧ s ≠ ".." := by
  constructor
  · intro hno s hs
    obtain ⟨p, hp, rfl⟩ := List.mem_map.1 hs
    cases p with
    | word w => exact (h _ hp).2
    | identifier s => exact hno s (List.mem_filterMap.2 ⟨_, hp, rfl⟩)
  · intro hno id hid
    obtain ⟨p, hp, hid⟩ := List.mem_filterMap.1 hid
    cases p with
    | word w => cases hid
    | identifier id' =>
      cases hid
      exact hno _ (List.mem_map_of_mem hp)

/-- The address of a request is found along the route of its operation, which is made of
    identifiers. -/
theorem address_of_request {c : Client} {op : Operation} {r : ApiRequest} (hr : op.request c = .ok r) :
    ValidParts op.parts ∧
      (c.baseUrl op.base).join ("/".intercalate (op.parts.map Part.text)) = .ok r.address := by
  obtain ⟨call, hcall, hrequest⟩ := ok_of_bind hr
  obtain ⟨hbase, hsegments, hvalid⟩ := op.follows call hcall
  have hjoin := Call.request_address hrequest
  rw [Call.path_of_identifiers (hsegments ▸ hvalid.identifiers), hbase, hsegments] at hjoin
  exact ⟨hvalid, hjoin⟩

theorem texts_ne_nil (op : Operation) : op.parts.map Part.text ≠ [] := by
  rw [Ne, List.map_eq_nil_iff]
  exact op.parts_ne_nil

/-- The route of a request is found behind its base, but for dots. -/
theorem path_of_base {c : Client} {op : Operation} {r : ApiRequest} (hr : op.request c = .ok r)
    {front : List String} (hfront : Url.IsBase (c.baseUrl op.base) front) :
    r.address.path = .segments (front ++ op.parts.map Part.text) ↔ NoDots op := by
  obtain ⟨hvalid, hjoin⟩ := address_of_request hr
  obtain ⟨u, hu, hpath⟩ := Url.join_identifiers hfront op.texts_ne_nil hvalid.identifiers
  rw [hu, Except.ok.injEq] at hjoin
  rw [noDots_iff hvalid, ← hjoin]
  exact hpath

/-- **Where the request of an operation goes.** -/
theorem request_path {config : Config} {c : Client} (hclient : Client.ofConfig config = .ok c)
    {op : Operation} {r : ApiRequest} (hrequest : op.request c = .ok r) :
    ∃ front, (c.baseUrl op.base).path = .segments (front ++ [""]) ∧
      (r.address.path = .segments (front ++ op.parts.map Part.text) ↔ NoDots op) := by
  rcases Client.isBase hclient op.base with ⟨text, hrootless⟩ | ⟨front, hfront⟩
  · obtain ⟨hvalid, hjoin⟩ := address_of_request hrequest
    rw [Url.join_rootless hrootless op.texts_ne_nil hvalid.identifiers] at hjoin
    cases hjoin
  · exact ⟨front, hfront.path, path_of_base hrequest hfront⟩

variable {σ : Type}

/-- A request goes out while an operation is performed. -/
def IsSent (link : Link σ) (c : Client) (op : Operation) (s : σ) (request : Http.Request) : Prop :=
  request ∈ Link.sentRequests (op.perform link.traced c (s, [])).2.2

/-- What goes out is the request of the operation. -/
theorem IsSent.request {link : Link σ} {c : Client} {op : Operation} {s : σ}
    {request : Http.Request} (h : IsSent link c op s request) :
    ∃ r, op.request c = .ok r ∧ r.wire c = .ok request := by
  unfold IsSent perform at h
  cases hrequest : op.request c with
  | error e =>
    rw [hrequest] at h
    exact absurd h List.not_mem_nil
  | ok r =>
    refine ⟨r, rfl, ?_⟩
    rw [hrequest] at h
    have hstate : (link.traced.fetch c r op.answer.read (s, [])).2 =
        (link.traced.send c r (s, [])).2 := by
      unfold Link.fetch
      split <;> next heq => rw [heq]
    dsimp only at h
    rw [hstate] at h
    cases hwire : r.wire c with
    | error e =>
      rw [Link.send, hwire] at h
      exact absurd h List.not_mem_nil
    | ok sent =>
      obtain ⟨trace, result, s', hsends, -, hlog⟩ := Link.send_isRun link hwire s
      have hsend : link.traced.send c r (s, []) = (result, s', trace) := hlog []
      rw [hsend] at h
      rw [hsends.eq_of_mem_sentRequests _ h]

/-- The request of an operation goes out unless the caller cancels first. -/
theorem isSent_of_request {link : Link σ} {c : Client} {op : Operation} {r : ApiRequest}
    {request : Http.Request} (hrequest : op.request c = .ok r) (hwire : r.wire c = .ok request)
    {s : σ} (uncancelled : link.cancelled s = false) (slot : (link.slot s).1 = false) :
    IsSent link c op s request := by
  obtain ⟨trace, result, s', hsends, -, hlog⟩ := Link.send_isRun link hwire s
  have hsend : link.traced.send c r (s, []) = (result, s', trace) := hlog []
  have hstate : (link.traced.fetch c r op.answer.read (s, [])).2.2 = trace := by
    unfold Link.fetch
    rw [hsend]
    cases result <;> rfl
  unfold IsSent perform
  rw [hrequest]
  dsimp only
  rw [hstate]
  exact hsends.mem_sentRequests uncancelled slot

/-- **A call has a request** wherever the interface has a path and the options are parameters. -/
theorem exists_address {c : Client} {op : Operation} {parts : List String}
    (hpath : c.apiUrl.path = .segments parts) {call : Call} (hcall : op.call = .ok call)
    (hbase : call.base = .api) {params : Query} (hparams : Query.ofOptions call.options = .ok params) :
    ∃ u, c.apiUrl.join call.path = .ok u ∧
      op.request c = .ok ⟨call.method, u, Query.extend .empty params, call.body, call.accept, true⟩ := by
  obtain ⟨-, hsegments, hvalid⟩ := op.follows call hcall
  have hids : ∀ s ∈ call.segments, isIdentifier s = true := hsegments ▸ hvalid.identifiers
  obtain ⟨u, hu, -⟩ := Url.join_eq_resolved hpath (hsegments ▸ op.texts_ne_nil) hids
  rw [← Call.path_of_identifiers hids] at hu
  refine ⟨u, hu, ?_⟩
  rw [request, hcall, Except.bind]
  exact Call.request_eq_ok_iff.2 ⟨u, params, by rw [hbase]; exact hu, hparams, rfl⟩

/-- A client that can send over a link: its interface has a path, its token fits into a
    header, nobody has cancelled, and the rate limit allows an attempt. -/
structure CanSend (link : Link σ) (c : Client) (s : σ) : Prop where
  path : ∃ parts, c.apiUrl.path = .segments parts
  token : Http.isFieldValue ("Bearer " ++ c.token) = true
  uncancelled : link.cancelled s = false
  slot : (link.slot s).1 = false

/-- **A call without options goes out**, with its body, to where its path leads. -/
theorem CanSend.exists_isSent {link : Link σ} {c : Client} {s : σ} (h : CanSend link c s)
    {op : Operation} {call : Call} (hcall : op.call = .ok call) (hbase : call.base = .api)
    (hoptions : call.options = .null) :
    ∃ request, IsSent link c op s request ∧ request.method = call.method ∧
      request.body = (if call.method.carriesBody then call.body else none).map Body.bytes ∧
      ∀ u, c.apiUrl.join call.path = .ok u → request.url.path = u.path := by
  obtain ⟨parts, hpath⟩ := h.path
  have hparams : Query.ofOptions call.options = .ok .empty := by rw [hoptions]; rfl
  obtain ⟨u, hu, hrequest⟩ := exists_address hpath hcall hbase hparams
  obtain ⟨request, hwire, hmethod, hbody⟩ := ApiRequest.exists_wire h.token
    ⟨call.method, u, Query.extend .empty .empty, call.body, call.accept, true⟩
  refine ⟨request, isSent_of_request hrequest hwire h.uncancelled h.slot, hmethod, hbody, fun v hv => ?_⟩
  obtain rfl : u = v := Except.ok.inj (hu.symm.trans hv)
  exact ApiRequest.wire_path hwire

/-! ## 3. Addresses -/

theorem parts_eq_of_shape {as bs : List Part} (hshape : as.map Part.shape = bs.map Part.shape)
    (htext : as.map Part.text = bs.map Part.text) : as = bs := by
  induction as generalizing bs with
  | nil =>
    cases bs with
    | nil => rfl
    | cons b bs => cases htext
  | cons a as ih =>
    cases bs with
    | nil => cases htext
    | cons b bs =>
      simp only [List.map_cons, List.cons.injEq] at hshape htext
      rw [Part.eq_of_shape hshape.1 htext.1, ih hshape.2 htext.2]

/-- Two operations are the same up to their identifiers. -/
def SameRoute (op op' : Operation) : Prop :=
  op.base = op'.base ∧ op.parts.map Part.shape = op'.parts.map Part.shape

/-- **Requests go along the route of their operation exactly if no identifier is a dot**,
    and then different identifiers have different addresses. -/
theorem path_of_isSent {config : Config} {c : Client} (hclient : Client.ofConfig config = .ok c)
    (link : Link σ) :
    (∀ op s request, IsSent link c op s request →
      ∃ front, (c.baseUrl op.base).path = .segments (front ++ [""]) ∧
        (request.url.path = .segments (front ++ op.parts.map Part.text) ↔ NoDots op)) ∧
    (∀ op op' s s' request request', IsSent link c op s request → IsSent link c op' s' request' →
      SameRoute op op' → NoDots op → NoDots op' → request.url = request'.url →
      op.identifiers = op'.identifiers) := by
  have hpath : ∀ op s request, IsSent link c op s request →
      ∃ front, (c.baseUrl op.base).path = .segments (front ++ [""]) ∧
        (request.url.path = .segments (front ++ op.parts.map Part.text) ↔ NoDots op) := by
    intro op s request hsent
    obtain ⟨r, hrequest, hwire⟩ := hsent.request
    obtain ⟨front, hbase, hpath⟩ := request_path hclient hrequest
    rw [← ApiRequest.wire_path hwire] at hpath
    exact ⟨front, hbase, hpath⟩
  refine ⟨hpath, ?_⟩
  intro op op' s s' request request' hsent hsent' hroute hdots hdots' hurl
  obtain ⟨front, hbase, hrequest⟩ := hpath op s request hsent
  obtain ⟨front', hbase', hrequest'⟩ := hpath op' s' request' hsent'
  have hfront : front = front' := by
    rw [hroute.1, hbase', UrlPath.segments.injEq] at hbase
    exact (List.append_cancel_right hbase).symm
  have htexts : op.parts.map Part.text = op'.parts.map Part.text := by
    have hpaths := hrequest.2 hdots
    rw [hurl, hrequest'.2 hdots', hfront, UrlPath.segments.injEq] at hpaths
    exact (List.append_cancel_left hpaths).symm
  rw [identifiers, identifiers, parts_eq_of_shape hroute.2 htexts]

/-! ## 4. At the public service -/

/-- A client of the public service, without a token. -/
structure IsPublic (c : Client) : Prop where
  client : Client.ofConfig Config.standard = .ok c
  path : c.apiUrl.path = .segments ["api", "v2", ""]
  scheme : c.apiUrl.scheme = "https"
  token : c.token = ""

theorem exists_isPublic : ∃ c, IsPublic c := by
  have hparts : (Client.ofConfig Config.standard).toOption.map
      (fun c => (c.apiUrl.path, c.apiUrl.scheme, c.token)) =
      some (.segments ["api", "v2", ""], "https", "") := by
    decide +kernel
  cases hclient : Client.ofConfig Config.standard with
  | error e => rw [hclient] at hparts; cases hparts
  | ok c =>
    rw [hclient] at hparts
    simp only [Except.toOption, Option.map_some, Option.some.injEq, Prod.mk.injEq] at hparts
    exact ⟨c, hclient, hparts.1, hparts.2.1, hparts.2.2⟩

/-- Over a script, the client can send. -/
theorem IsPublic.canSend {c : Client} (h : IsPublic c) :
    CanSend (Rehearsal.link ⟨Peer.scripted, false, none⟩) c (World.start []) where
  path := ⟨_, h.path⟩
  token := by rw [h.token]; decide
  uncancelled := rfl
  slot := rfl

/-- Whatever identifiers are, a call along them without options goes out. -/
theorem IsPublic.exists_isSent {c : Client} (h : IsPublic c) (op : Operation) {call : Call}
    (hcall : op.call = .ok call) (hbase : call.base = .api) (hoptions : call.options = .null)
    (hne : call.segments ≠ []) (hids : ∀ s ∈ call.segments, isIdentifier s = true) :
    ∃ request, IsSent (Rehearsal.link ⟨Peer.scripted, false, none⟩) c op (World.start []) request ∧
      request.method = call.method ∧
      request.url.path = .segments (Url.walk ["v2", "api"] call.segments) := by
  obtain ⟨u, hu, hpath⟩ := Url.join_eq_resolved h.path hne hids
  have hresolved : Url.resolved c.apiUrl ["api", "v2", ""] call.segments =
      Url.walk ["v2", "api"] call.segments := by
    rw [Url.resolved, if_neg (by rw [h.scheme]; decide)]
    rfl
  rw [hresolved] at hpath
  obtain ⟨request, hsent, hmethod, -, haddress⟩ := h.canSend.exists_isSent hcall hbase hoptions
  rw [← Call.path_of_identifiers hids] at hu
  exact ⟨request, hsent, hmethod, (haddress u hu).trans hpath⟩

/-- Two organizations whose names differ in a dot have two addresses. -/
theorem organizations_apart : ∃ c request request', IsPublic c ∧
    IsSent (Rehearsal.link ⟨Peer.scripted, false, none⟩) c (.organizations (.read "acme"))
      (World.start []) request ∧
    IsSent (Rehearsal.link ⟨Peer.scripted, false, none⟩) c (.organizations (.read "acme."))
      (World.start []) request' ∧
    request.url.path = .segments ["api", "v2", "organizations", "acme"] ∧
    request.url ≠ request'.url := by
  obtain ⟨c, hpublic⟩ := exists_isPublic
  obtain ⟨request, hsent, -⟩ := hpublic.exists_isSent (.organizations (.read "acme")) (by rfl)
    rfl rfl (by decide) (by decide)
  obtain ⟨request', hsent', -⟩ := hpublic.exists_isSent (.organizations (.read "acme.")) (by rfl)
    rfl rfl (by decide) (by decide)
  have hdots : NoDots (.organizations (.read "acme")) := by
    change ∀ id ∈ ["acme"], id ≠ "." ∧ id ≠ ".."
    decide
  have hdots' : NoDots (.organizations (.read "acme.")) := by
    change ∀ id ∈ ["acme."], id ≠ "." ∧ id ≠ ".."
    decide
  obtain ⟨hpath, hapart⟩ :=
    path_of_isSent hpublic.client (Rehearsal.link ⟨Peer.scripted, false, none⟩)
  obtain ⟨front, hfront, hrequest⟩ := hpath _ _ request hsent
  have hparts : front ++ [""] = ["api", "v2"] ++ [""] :=
    UrlPath.segments.inj (hfront.symm.trans hpublic.path)
  obtain rfl := List.append_cancel_right hparts
  refine ⟨c, request, request', hpublic, hsent, hsent', hrequest.2 hdots, fun hurl => ?_⟩
  have hsame := hapart _ _ _ _ request request' hsent hsent' ⟨rfl, rfl⟩ hdots hdots' hurl
  exact absurd hsame (by decide)

/-- **Deleting the organization `..` deletes at the root of the interface.**  The name is
    accepted, and no segment of the route is left. -/
theorem delete_organization_dots : ∃ c request, IsPublic c ∧ isIdentifier ".." = true ∧
    IsSent (Rehearsal.link ⟨Peer.scripted, false, none⟩) c (.organizations (.delete ".."))
      (World.start []) request ∧
    request.method = .delete ∧ request.url.path = .segments ["api", "v2", ""] ∧
    request.url.path ≠ .segments
      (["api", "v2"] ++ (Operation.organizations (.delete "..")).parts.map Part.text) := by
  obtain ⟨c, hpublic⟩ := exists_isPublic
  obtain ⟨request, hsent, hmethod, hpath⟩ :=
    hpublic.exists_isSent (.organizations (.delete "..")) (by rfl) rfl rfl (by decide)
      (by decide)
  have hroot : request.url.path = .segments ["api", "v2", ""] := hpath.trans (by decide +kernel)
  refine ⟨c, request, hpublic, by decide, hsent, hmethod, hroot, ?_⟩
  rw [hroot]
  decide

end Operation
end TerraformCloud
