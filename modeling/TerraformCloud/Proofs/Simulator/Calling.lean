/-
  TerraformCloud/Proofs/Simulator/Calling.lean
  ============================================
  **A client asks the simulated service for a page.**

  The request for a list of workspaces is followed from the options of the caller to the
  service and back: what the options say is in the query (`valuesAt_params`), identifiers
  are the path, the secret arrives if it can be sent and read (`Admits`), and the answer
  ends the call at the first attempt (`send_of_final`).  So a page is fetched as the
  service lists it (`fetch_told`), and what the service knows stays as it is.  A ping is
  answered in the same way, and to whoever asks (`ping_answered`).

  All this is for requests that can be delivered.  The text to search for is in the URL, and
  with a text that is too long nothing is fetched (`fetch_too_long`).
-/
import TerraformCloud.Proofs.Query.Options
import TerraformCloud.Proofs.Sending.Anonymous
import TerraformCloud.Proofs.Sending.Lost
import TerraformCloud.Proofs.Service.Addresses
import TerraformCloud.Proofs.Simulator.Form
import TerraformCloud.Proofs.Simulator.Serving
import TerraformCloud.Walk.Listing

namespace TerraformCloud

/-! ## 1. The parameters of a list -/

namespace Workspaces.ListOptions

/-- The members of the options. -/
def members (o : ListOptions) : List (String × Json.Value) :=
  o.page.members ++
    [textMember "search[name]" o.search, textMember "search[tags]" o.tags,
     textMember "filter[project][id]" o.projectId, textsMember "include" o.included]

theorem members_scalar (o : ListOptions) :
    ∀ m ∈ o.members, ∃ texts, Query.fieldValues m.1 m.2 = .ok texts := by
  intro m hm
  simp only [members, PageRequest.members, List.cons_append, List.nil_append, List.mem_cons,
    List.not_mem_nil, or_false] at hm
  rcases hm with rfl | rfl | rfl | rfl | rfl | rfl
  · exact ⟨_, Query.fieldValues_natural _ _⟩
  · exact ⟨_, Query.fieldValues_natural _ _⟩
  · exact ⟨_, Query.fieldValues_text _ _⟩
  · exact ⟨_, Query.fieldValues_text _ _⟩
  · exact ⟨_, Query.fieldValues_text _ _⟩
  · exact ⟨_, Query.fieldValues_texts _ _⟩

/-- **What a list of workspaces asks for is in its parameters.** -/
theorem valuesAt_params (o : ListOptions) :
    ∃ a : Query.Assembly, Query.ofOptions o.params = .ok a.query ∧
      Query.valuesAt a.query "page[number]" =
        (o.page.number.map fun n => String.ofList (Nat.toDigits 10 n.toNat)).toList ∧
      Query.valuesAt a.query "page[size]" =
        (o.page.size.map fun n => String.ofList (Nat.toDigits 10 n.toNat)).toList ∧
      Query.valuesAt a.query "search[name]" = o.search.toList := by
  have hkeys : (o.members.map (·.1)).Nodup := by
    change (["page[number]", "page[size]", "search[name]", "search[tags]", "filter[project][id]",
      "include"] : List String).Nodup
    decide
  obtain ⟨a, ha, hvalues⟩ := Query.valuesAt_ofOptions hkeys o.members_scalar
  have hnaturals : ∀ name (n : Option UInt32), Query.memberTexts (name, .opt (fun n => .nat n.toNat) n) =
      (n.map fun n => String.ofList (Nat.toDigits 10 n.toNat)).toList :=
    fun name n => Query.memberTexts_of_ok (Query.fieldValues_natural name n)
  refine ⟨a, ha, ?_, ?_, ?_⟩
  · exact (hvalues _ (.head _)).trans (hnaturals _ _)
  · exact (hvalues _ (.tail _ (.head _))).trans (hnaturals _ _)
  · have hsearch := hvalues (textMember "search[name]" o.search) (.tail _ (.tail _ (.head _)))
    exact hsearch.trans (Query.memberTexts_of_ok (Query.fieldValues_text _ _))

end Workspaces.ListOptions

/-! ## 2. The secret -/

theorem arrivedValue_bearer {token : String}
    (h : token.toList.getLast?.any (fun last => !isHeaderBlank last) = true) :
    arrivedValue ("Bearer " ++ token) = "Bearer " ++ token := by
  obtain ⟨last, hlast, hblank⟩ := (Option.any_eq_true _ _).1 h
  rw [Bool.not_eq_true'] at hblank
  obtain ⟨front, hfront⟩ := List.getLast?_eq_some_iff.1 hlast
  have hvalue : ("Bearer " ++ token).toList = "Bearer ".toList ++ front ++ [last] := by
    rw [String.toList_append, hfront, List.append_assoc]
  have hstart : ("Bearer ".toList ++ front ++ [last]).dropWhile isHeaderBlank =
      "Bearer ".toList ++ front ++ [last] := rfl
  rw [arrivedValue, hvalue, hstart, List.reverse_concat, List.dropWhile_cons_of_neg (by simp [hblank]),
    ← List.reverse_concat, List.reverse_reverse, ← hvalue, String.ofList_toList]

theorem find?_arrivedHeaders (headers : Http.Headers) (name : String) :
    (arrivedHeaders headers).find? name = (headers.find? name).map arrivedValue := by
  have hkeys : ((headers.entries.map fun h => (h.1, arrivedValue h.2)).map (·.1)).Nodup := by
    rw [List.map_map]
    refine (Keyed.keys_ascending headers).imp ?_
    rintro a b hlt rfl
    exact String.lt_irrefl _ hlt
  rw [arrivedHeaders, Keyed.find?_ofList hkeys, List.find?_map, Option.map_map, Keyed.find?,
    Option.map_map]
  rfl

theorem ApiRequest.headers_authenticated {c : Client} {r : ApiRequest} (h : r.authenticated = true)
    (hsendable : Http.isFieldValue c.token = true) :
    ∃ headers, r.headers c = .ok headers ∧
      headers.find? "authorization" = some ("Bearer " ++ c.token) := by
  have hbearer : Http.isFieldValue ("Bearer " ++ c.token) = true := by
    rw [Http.isFieldValue, String.toList_append, List.all_append, Bool.and_eq_true]
    exact ⟨by decide, hsendable⟩
  unfold ApiRequest.headers
  dsimp only
  rw [h, hbearer]
  refine ⟨_, rfl, ?_⟩
  cases r.sentBody <;> simp

namespace Simulator

variable {s : Store} {c : Client} {organization : String}

/-- A service that answers a client: it is where the client expects it, the secret of the
    client can be sent, and it is the one that is asked for.  A secret that is asked for
    has to arrive unchanged and be looked into: it is plain and does not end in a blank. -/
structure Admits (s : Store) (c : Client) : Prop where
  address : c.apiUrl.path = .segments ["api", "v2", ""]
  sendable : Http.isFieldValue c.token = true
  known : ∀ token, s.requiredToken = some token → token = c.token ∧
    Http.isPlainValue token = true ∧ token.toList.getLast?.any (fun last => !isHeaderBlank last) = true

/-- Whether the secret of a client, as it arrives, is the one that is asked for. -/
def isKnown (s : Store) (token : String) : Bool :=
  s.requiredToken.all fun required =>
    Http.isPlainValue (arrivedValue ("Bearer " ++ token)) &&
      arrivedValue ("Bearer " ++ token) = "Bearer " ++ required

/-- A client that is let in: it looks for the service where it is, and its secret arrives
    as it is asked for. -/
structure IsLetIn (s : Store) (c : Client) : Prop where
  address : c.apiUrl.path = .segments ["api", "v2", ""]
  sendable : Http.isFieldValue c.token = true
  known : isKnown s c.token = true

theorem isAuthorized_arrived {headers : Http.Headers} {token : String}
    (hfind : headers.find? "authorization" = some ("Bearer " ++ token)) :
    isAuthorized s (arrivedHeaders headers) = isKnown s token := by
  rw [isAuthorized, isKnown, find?_arrivedHeaders, hfind]
  cases s.requiredToken with
  | none => rfl
  | some required => rw [Option.map_some, Option.all_some]

theorem Admits.isKnown (h : Admits s c) : isKnown s c.token = true := by
  unfold Simulator.isKnown
  cases hrequired : s.requiredToken with
  | none => rfl
  | some token =>
    obtain ⟨rfl, hplain, hlast⟩ := h.known token hrequired
    have hvalue : Http.isPlainValue ("Bearer " ++ c.token) = true := by
      rw [Http.isPlainValue, String.toList_append, List.all_append, Bool.and_eq_true]
      exact ⟨by decide, hplain⟩
    rw [Option.all_some, arrivedValue_bearer hlast, hvalue, decide_eq_true rfl]
    rfl

theorem Admits.isLetIn (h : Admits s c) : IsLetIn s c := ⟨h.address, h.sendable, h.isKnown⟩

end Simulator

/-! ## 3. The request -/

/-- The request of a call that reads, where its path leads somewhere and its options are
    parameters. -/
theorem Call.request_select {segments : List String} {options : Json.Value} {c : Client} {u : Url}
    {params : Query} (hu : c.apiUrl.join (Call.select segments options).path = .ok u)
    (hparams : Query.ofOptions options = .ok params) :
    (Call.select segments options).request c =
      .ok ⟨.get, u, Query.extend .empty params, none, none, true⟩ :=
  Call.request_eq_ok_iff.2 ⟨u, params, hu, hparams, rfl⟩

namespace Simulator

variable {s : Store} {c : Client} {organization : String}

/-- An organization that the service knows and that a client can ask about. -/
structure Hosts (s : Store) (organization : String) : Prop where
  identifier : isIdentifier organization = true
  noDots : organization ≠ "." ∧ organization ≠ ".."
  known : (s.organizations.find? organization).isSome = true

/-- A request for a page of the workspaces of an organization. -/
structure AsksFor (organization : String) (number size : UInt32) (search : Option String)
    (r : ApiRequest) : Prop where
  method : r.method = .get
  authenticated : r.authenticated = true
  path : r.address.path = .segments ["api", "v2", "organizations", organization, "workspaces"]
  number : Query.valuesAt r.query "page[number]" = [String.ofList (Nat.toDigits 10 number.toNat)]
  size : Query.valuesAt r.query "page[size]" = [String.ofList (Nat.toDigits 10 size.toNat)]
  search : Query.valuesAt r.query "search[name]" = search.toList

theorem listPath_eq (hid : isIdentifier organization = true) :
    Workspaces.listPath organization = .ok ["organizations", organization, "workspaces"] := by
  rw [Workspaces.listPath, Organizations.path, require, hid]
  rfl

theorem isBase_api {u : Url} (h : u.path = .segments ["api", "v2", ""]) :
    Url.IsBase u ["api", "v2"] where
  path := h
  no_dots t ht := by
    have hword : isIdentifier t = true ∧ ¬(t = "." ∨ t = "..") := by
      simp only [List.mem_cons, List.not_mem_nil, or_false] at ht
      rcases ht with rfl | rfl <;> decide
    rw [Url.isDot_identifier hword.1]
    exact hword.2
  file _ := by decide

theorem exists_request (haddress : c.apiUrl.path = .segments ["api", "v2", ""])
    (hhosts : Hosts s organization) {o : Workspaces.ListOptions} {number size : UInt32}
    (hpage : o.page = ⟨some number, some size⟩) :
    ∃ r, (Listing.workspaces organization o).operation.request c = .ok r ∧
      AsksFor organization number size o.search r := by
  have hbase := isBase_api haddress
  have hids : ∀ t ∈ ["organizations", organization, "workspaces"], isIdentifier t = true := by
    simpa using ⟨by decide, hhosts.identifier, by decide⟩
  obtain ⟨u, hu, hpath⟩ := Url.join_identifiers hbase (List.cons_ne_nil _ _) hids
  obtain ⟨a, ha, hnumber, hsize, hsearch⟩ := o.valuesAt_params
  rw [hpage] at hnumber hsize
  have hcall : (Listing.workspaces organization o).operation.call =
      .ok (.select ["organizations", organization, "workspaces"] o.params) := by
    change (do return Call.select (← Workspaces.listPath organization) o.params) = _
    rw [listPath_eq hhosts.identifier]
    rfl
  have hvalues : ∀ name,
      Query.valuesAt (Query.extend .empty a.query) name = Query.valuesAt a.query name := by
    intro name
    rw [Query.valuesAt_extend]
    rfl
  have hreference : (Call.select ["organizations", organization, "workspaces"] o.params).path =
      "/".intercalate ["organizations", organization, "workspaces"] := Call.path_of_identifiers hids
  refine ⟨⟨.get, u, Query.extend .empty a.query, none, none, true⟩, ?_, rfl, rfl, hpath.2 ?_,
    (hvalues _).trans hnumber, (hvalues _).trans hsize, (hvalues _).trans hsearch⟩
  · rw [Operation.request, hcall, Except.bind]
    exact Call.request_select (by rw [hreference]; exact hu) ha
  · intro t ht
    simp only [List.mem_cons, List.not_mem_nil, or_false] at ht
    rcases ht with rfl | rfl | rfl
    · decide
    · exact hhosts.noDots
    · decide

theorem AsksFor.query {number size : UInt32} {search : Option String} {r : ApiRequest}
    (h : AsksFor organization number size search r) : r.url.query = some r.query.encode := by
  have hne : r.query.encode ≠ "" := by
    intro hempty
    have hnone : Query.valuesOf "page[number]" (formPairs r.query.encode) =
        Query.valuesAt r.query "page[number]" := valuesOf_formPairs r.query (by decide)
    rw [hempty, h.number] at hnone
    cases hnone
  rw [ApiRequest.url, if_neg (by simpa using hne), Url.setQuery_encode]

/-- **The service answers a request for a page with the page**, if it knows the caller. -/
theorem AsksFor.handle {number size : UInt32} {search : Option String} {r : ApiRequest}
    (h : AsksFor organization number size search r) (hsendable : Http.isFieldValue c.token = true)
    (hhosts : Hosts s organization) :
    ∃ request, r.wire c = .ok request ∧ ∀ now, handle now (arrivedRequest request) s =
      if isKnown s c.token = true then
        (s, listing (matching s organization search) ⟨some number, some size, search⟩)
      else (s, failure 401 "unauthorized" "") := by
  obtain ⟨headers, hheaders, hfind⟩ := ApiRequest.headers_authenticated h.authenticated hsendable
  refine ⟨_, by rw [ApiRequest.wire, hheaders]; rfl, fun now => ?_⟩
  have hauthorized : isAuthorized s (arrivedHeaders (Http.Request.of r.method r.url.withoutFragment
      headers (r.sentBody.map Body.bytes)).headers) = isKnown s c.token := by
    refine isAuthorized_arrived ?_
    rw [Http.Request.of_headers, if_pos rfl, hfind]
    rfl
  rw [← hauthorized]
  refine handle_workspaces hhosts.identifier ?_ ?_ ?_ hhosts.known
  · exact (Http.Request.of_method _ _ _ _).trans h.method
  · exact (Http.Request.of_path _ _ _ _).trans ((ApiRequest.url_path r).trans h.path)
  · have hquery := (Http.Request.of_query r.method r.url.withoutFragment headers
      (r.sentBody.map Body.bytes)).trans h.query
    exact (congrArg _ hquery).trans (ofQuery?_encode h.number h.size h.search)

end Simulator

/-! ## 4. The answer -/

/-- **What calls for nothing more ends a call**, be it an answer or that there is none. -/
theorem Link.send_of_final {σ : Type} {link : Link σ} {c : Client} {r : ApiRequest}
    {request : Http.Request} {answer : Option Http.Response} {s s₁ s₂ : σ}
    (hwire : r.wire c = .ok request) (hcancelled : link.cancelled s = false)
    (hslot : link.slot s = (false, s₁)) (hattempt : link.attempt request s₁ = (.ofAnswer answer, s₂))
    (hstill : link.cancelled s₂ = false)
    (hretryable : c.retry.isRetryable (.ofAnswer answer) = false) :
    link.send c r s = (finalResult answer, s₂) := by
  have hstop : c.retry.decide false (.ofAnswer answer) = .stop := by
    rw [RetryPolicy.decide, hretryable]
    rfl
  rw [send, hwire]
  dsimp only
  rw [sendFrom, hcancelled, if_neg Bool.false_ne_true, hslot]
  dsimp only
  rw [hattempt]
  cases answer with
  | none =>
    change sendFrom.conclude link c.retry request _ 0 .lost _ s₂ = _
    rw [sendFrom.conclude.eq_def, hstill, show c.retry.decide false .lost = .stop from hstop]
    rfl
  | some response =>
    change sendFrom.conclude link c.retry request _ 0 (.response response.status response.fields) _ s₂ = _
    rw [sendFrom.conclude.eq_def, hstill, show c.retry.decide false (.response _ _) = .stop from hstop]
    rfl

theorem Listing.fetch_of_request {σ : Type} {link : Link σ} {c : Client} {kind : Kind} {l : Listing}
    {r : ApiRequest} {s s' : σ} {result : Except ApiError Http.Response}
    (hr : l.operation.request c = .ok r) (hsend : link.send c r s = (result, s')) :
    fetch link c kind l s = (result.bind (Answer.page kind).read, s') := by
  rw [fetch, hr]
  dsimp only
  rw [Link.fetch, hsend]
  cases result <;> rfl

section Answer

variable {π : Type} {rehearsal : Rehearsal π} {w : World π}

theorem World.attempt_of_response {answer : Peer π} {interruptible : Bool} {request : Http.Request}
    {response : Http.Response} {p : π} (hdeliverable : request.isDeliverable = true)
    (h : answer (arrivedRequest request) w.peer = (.response response, p)) :
    World.attempt answer interruptible request w = (.response (arrivedResponse response),
      { w with peer := p, requests := w.requests ++ [(w.now, arrivedRequest request)] }) := by
  rw [World.attempt, hdeliverable, Bool.not_true, if_neg Bool.false_ne_true]
  dsimp only
  rw [h]

/-- A final answer of the peer ends a call, and only the peer may have changed. -/
theorem Rehearsal.send_of_final {c : Client} {r : ApiRequest} {request : Http.Request}
    (hwire : r.wire c = .ok request) (hdeliverable : request.isDeliverable = true)
    (hcancelled : rehearsal.link.cancelled w = false) {response : Http.Response} {p : π}
    (hanswer : rehearsal.peer (arrivedRequest request) w.peer = (.response response, p))
    (hfinal : response.status ≠ RetryPolicy.tooManyRequests ∧ Http.isServerError response.status = false) :
    ∃ w', rehearsal.link.send c r w = (checkResponse (arrivedResponse response), w') ∧ w'.peer = p ∧
      rehearsal.link.cancelled w' = false := by
  have hretryable : c.retry.isRetryable
      (.response (arrivedResponse response).status (arrivedResponse response).fields) = false := by
    change (decide (response.status = _) || (_ && Http.isServerError response.status)) = _
    rw [decide_eq_false hfinal.1, hfinal.2, Bool.and_false, Bool.or_false]
  have hattempt : rehearsal.link.attempt request w = (.ofAnswer (some (arrivedResponse response)), _) :=
    World.attempt_of_response hdeliverable hanswer
  exact ⟨_, Link.send_of_final hwire hcancelled rfl hattempt hcancelled hretryable, rfl, hcancelled⟩

/-- A request that cannot be delivered is a broken connection to whoever does not try again. -/
theorem Rehearsal.send_of_undeliverable {c : Client} {r : ApiRequest} {request : Http.Request}
    (hwire : r.wire c = .ok request) (h : request.isDeliverable = false)
    (hcancelled : rehearsal.link.cancelled w = false) (hretry : c.retry.retryServerErrors = false) :
    rehearsal.link.send c r w = (.error .connection, w) := by
  have hattempt : rehearsal.link.attempt request w = (.ofAnswer none, w) :=
    World.attempt_of_undeliverable h _ _ w
  exact Link.send_of_final hwire hcancelled rfl hattempt hcancelled hretry

end Answer

/-! ## 5. The page -/

namespace Simulator

variable {s : Store} {c : Client} {organization : String}

/-- What is stored can be told: there are not too many workspaces, and relationships have
    no links. -/
structure Tellable (s : Store) : Prop where
  count : s.workspaces.entries.length < 2 ^ 32
  links : ∀ w ∈ s.workspaces.values, ∀ e ∈ w.relationships.entries, e.2.links = none

namespace Tellable

variable {search : Option String} (h : Tellable s)

include h

theorem count_matching : (matching s organization search).length < 2 ^ 32 := by
  refine Nat.lt_of_le_of_lt ?_ h.count
  calc (matching s organization search).length
      = (wanted s organization search).length :=
        (isListed_matching s organization search).perm.length_eq
    _ ≤ s.workspaces.values.length := List.length_filter_le _ _
    _ = s.workspaces.entries.length := List.length_map _

theorem recoverable_matching :
    ∀ w ∈ matching s organization search, w.relationships.Recoverable 122 := by
  intro w hw e he v hv
  have hmem : w ∈ wanted s organization search :=
    (isListed_matching s organization search).perm.mem_iff.1 hw
  rw [h.links w (List.mem_of_mem_filter hmem) e he] at hv
  cases hv

end Tellable

section Fetching

/-- A link to the simulated service, at a time of day. -/
@[reducible] def link (now : Instant) (interruptible : Bool)
    (observer : Option (RetryEvent → World Store → World Store)) : Link (World Store) :=
  Rehearsal.link ⟨Peer.simulated now, interruptible, observer⟩

variable {now : Instant} {interruptible : Bool}
  {observer : Option (RetryEvent → World Store → World Store)} {o : Workspaces.ListOptions}
  {number size : UInt32} {w : World Store}

/-- **A page that can be told is fetched as it is listed**, and nothing is changed by it. -/
theorem fetch_told (hletIn : IsLetIn s c) (hhosts : Hosts s organization)
    (hcount : (matching s organization o.search).length < 2 ^ 32)
    (hrecoverable : ∀ r ∈ matching s organization o.search, r.relationships.Recoverable 122)
    (hpage : o.page = ⟨some number, some size⟩)
    (hdeliverable : (Listing.workspaces organization o).operation.isDeliverable c = true)
    (hw : w.peer = s) (hcancelled : (link now interruptible observer).cancelled w = false) :
    let q : ListQuery := ⟨some number, some size, o.search⟩
    let all := matching s organization o.search
    ∃ w', Listing.fetch (link now interruptible observer) c .workspace (.workspaces organization o) w =
        (.ok ⟨pageItems all q.pageNumber q.pageSize, q.position all.length⟩, w') ∧
      w'.peer = s ∧ (link now interruptible observer).cancelled w' = false := by
  intro q all
  obtain ⟨r, hr, hasks⟩ := exists_request hletIn.address hhosts hpage
  obtain ⟨request, hwire, hhandle⟩ := hasks.handle hletIn.sendable hhosts
  obtain ⟨body, hlisting, hread⟩ := @decodeList_listing .workspace all q hcount hrecoverable
  have hanswer : Peer.simulated now (arrivedRequest request) w.peer =
      (.response ⟨200, [("content-type", "application/vnd.api+json")], some body⟩, s) := by
    rw [hw, Peer.simulated, hhandle, if_pos hletIn.known]
    dsimp only
    rw [hlisting]
  have hfinal : (200 : Http.Status) ≠ RetryPolicy.tooManyRequests ∧ Http.isServerError 200 = false := by
    decide
  obtain ⟨w', hsend, hw', hstill⟩ := Rehearsal.send_of_final hwire
    (Operation.deliverable_of_wire hdeliverable hr hwire) hcancelled hanswer hfinal
  exact ⟨w', (Listing.fetch_of_request hr hsend).trans (congrArg (·, w') hread), hw', hstill⟩

/-- **A caller who is not known is refused.** -/
theorem fetch_refused (haddress : c.apiUrl.path = .segments ["api", "v2", ""])
    (hsendable : Http.isFieldValue c.token = true) (hunknown : isKnown s c.token = false)
    (hhosts : Hosts s organization) (hpage : o.page = ⟨some number, some size⟩)
    (hdeliverable : (Listing.workspaces organization o).operation.isDeliverable c = true)
    (hw : w.peer = s) (hcancelled : (link now interruptible observer).cancelled w = false) :
    ∃ w', Listing.fetch (link now interruptible observer) c .workspace (.workspaces organization o) w =
      (.error .unauthorized, w') ∧ w'.peer = s := by
  obtain ⟨r, hr, hasks⟩ := exists_request haddress hhosts hpage
  obtain ⟨request, hwire, hhandle⟩ := hasks.handle hsendable hhosts
  have hanswer : Peer.simulated now (arrivedRequest request) w.peer =
      (.response (failure 401 "unauthorized" ""), s) := by
    rw [hw, Peer.simulated, hhandle, hunknown, if_neg Bool.false_ne_true]
  obtain ⟨w', hsend, hw', -⟩ := Rehearsal.send_of_final hwire
    (Operation.deliverable_of_wire hdeliverable hr hwire) hcancelled hanswer (by decide)
  exact ⟨w', Listing.fetch_of_request hr hsend, hw'⟩

theorem fetch_unsendable {σ : Type} {l : Link σ} {x : σ}
    (haddress : c.apiUrl.path = .segments ["api", "v2", ""])
    (hsendable : Http.isFieldValue c.token = false) (hhosts : Hosts s organization)
    (hpage : o.page = ⟨some number, some size⟩) :
    Listing.fetch l c .workspace (.workspaces organization o) x =
      (.error (.invalidHeader .badToken), x) := by
  obtain ⟨r, hr, hasks⟩ := exists_request haddress hhosts hpage
  have hheaders : r.headers c = .error (.invalidHeader .badToken) := by
    have hbearer : Http.isFieldValue ("Bearer " ++ c.token) = false := by
      rw [Http.isFieldValue, String.toList_append, List.all_append]
      exact (congrArg (_ && ·) hsendable).trans (Bool.and_false _)
    rw [ApiRequest.headers, hasks.authenticated, hbearer]
    rfl
  have hsend : l.send c r x = (.error (.invalidHeader .badToken), x) := by
    rw [Link.send, ApiRequest.wire, hheaders]
    rfl
  exact Listing.fetch_of_request hr hsend

/-- **A text that is too long is not searched for.** -/
theorem fetch_too_long (haddress : c.apiUrl.path = .segments ["api", "v2", ""])
    (hsendable : Http.isFieldValue c.token = true) (hretry : c.retry.retryServerErrors = false)
    (hhosts : Hosts s organization) (hpage : o.page = ⟨some number, some size⟩) {text : String}
    (hsearch : o.search = some text) (hlong : longestUrl < (Utf8.encode text).length)
    (hcancelled : (link now interruptible observer).cancelled w = false) :
    Listing.fetch (link now interruptible observer) c .workspace (.workspaces organization o) w =
      (.error .connection, w) := by
  obtain ⟨r, hr, hasks⟩ := exists_request haddress hhosts hpage
  obtain ⟨request, hwire, -⟩ := hasks.handle hsendable hhosts
  have hquery : request.url.query = some r.query.encode := by
    obtain ⟨headers, -, rfl⟩ := r.wire_eq hwire
    exact (Http.Request.of_query _ _ _ _).trans hasks.query
  have hvalue : text ∈ Query.valuesAt r.query "search[name]" := by
    rw [hasks.search, hsearch]
    exact List.mem_singleton.2 rfl
  have hsize : longestUrl < request.url.size :=
    Nat.lt_of_lt_of_le hlong (Nat.le_trans (Query.length_value_le (by decide) hvalue)
      (Url.length_query_le hquery))
  exact Listing.fetch_of_request hr (Rehearsal.send_of_undeliverable hwire
    (Http.Request.undeliverable_of_long hsize) hcancelled hretry)

end Fetching

/-! ## 6. The ping -/

theorem handle_ping {now : Instant} {req : Http.Request} (hmethod : req.method = .get)
    (hpath : req.url.path = .segments ["api", "v2", "ping"]) : handle now req s = (s, pong s) := by
  have hurl : Endpoint.ofUrl req.url = .endpoint .ping := by
    rw [Endpoint.ofUrl, hpath]
    rfl
  have hget : Endpoint.ping.methods.contains Http.Method.get = true := rfl
  rw [handle, hurl]
  dsimp only
  rw [answerAt, hmethod, hget, if_neg (by decide), if_neg (by decide)]
  rfl

/-- Whether the ping of a client can be delivered. -/
def canPing (c : Client) : Bool :=
  match (c.request .api .get "ping").bind (·.wire c) with
  | .ok request => request.isDeliverable
  | .error _ => true

/-- The request of a ping. -/
theorem exists_ping (haddress : c.apiUrl.path = .segments ["api", "v2", ""])
    (hsendable : Http.isFieldValue c.token = true) (hdeliverable : canPing c = true) :
    ∃ r request, c.request .api .get "ping" = .ok r ∧ r.wire c = .ok request ∧
      request.isDeliverable = true ∧ request.method = .get ∧
      request.url.path = .segments ["api", "v2", "ping"] := by
  have hids : ∀ t ∈ ["ping"], isIdentifier t = true := by decide
  obtain ⟨u, hu, hpath⟩ := Url.join_identifiers (isBase_api haddress) (List.cons_ne_nil _ _) hids
  have hjoin : (c.baseUrl .api).join "ping" = .ok u := hu
  obtain ⟨r, hrequest, hmethod, hurl, hauthenticated⟩ : ∃ r, c.request .api .get "ping" = .ok r ∧
      r.method = .get ∧ r.address = u ∧ r.authenticated = true := by
    rw [Client.request, hjoin]
    exact ⟨_, rfl, rfl, rfl, rfl⟩
  obtain ⟨headers, hheaders, -⟩ := ApiRequest.headers_authenticated hauthenticated hsendable
  have hwire : r.wire c = .ok (Http.Request.of r.method r.url.withoutFragment headers
      (r.sentBody.map Body.bytes)) := by
    rw [ApiRequest.wire, hheaders]
    rfl
  rw [canPing, hrequest, Except.bind, hwire] at hdeliverable
  refine ⟨r, _, hrequest, hwire, hdeliverable, (Http.Request.of_method _ _ _ _).trans hmethod, ?_⟩
  rw [ApiRequest.wire_path hwire, hurl]
  exact hpath.2 (by decide)

/-- **A ping that is answered tells what the answer says.** -/
theorem ping_of_answer {π : Type} {rehearsal : Rehearsal π} {w : World π} {r : ApiRequest}
    (hrequest : c.request .api .get "ping" = .ok r) {request : Http.Request}
    (hwire : r.wire c = .ok request) (hdeliverable : request.isDeliverable = true)
    (hcancelled : rehearsal.link.cancelled w = false) {response : Http.Response} {p : π}
    (hanswer : rehearsal.peer (arrivedRequest request) w.peer = (.response response, p))
    (hfine : response.status = 204) :
    ∃ w', rehearsal.link.ping c w = (Link.Metadata.ofResponse (arrivedResponse response), w') ∧
      w'.peer = p ∧ rehearsal.link.cancelled w' = false := by
  obtain ⟨w', hsend, hw', hstill⟩ := Rehearsal.send_of_final hwire hdeliverable hcancelled hanswer
    (by rw [hfine]; decide)
  refine ⟨w', ?_, hw', hstill⟩
  have hcheck : checkResponse (arrivedResponse response) = .ok (arrivedResponse response) :=
    if_pos (by rw [arrivedResponse, hfine]; decide)
  rw [Link.ping, hrequest]
  dsimp only
  rw [Link.fetch, hsend, hcheck]

/-- **The service answers a ping**, whoever asks. -/
theorem ping_answered {now : Instant} {interruptible : Bool}
    {observer : Option (RetryEvent → World Store → World Store)}
    (haddress : c.apiUrl.path = .segments ["api", "v2", ""]) (hsendable : Http.isFieldValue c.token = true)
    (hdeliverable : canPing c = true) {w : World Store} (hw : w.peer = s)
    (hcancelled : (link now interruptible observer).cancelled w = false) :
    ∃ w', (link now interruptible observer).ping c w =
        (Link.Metadata.ofResponse (arrivedResponse (pong s)), w') ∧ w'.peer = s ∧
      (link now interruptible observer).cancelled w' = false := by
  obtain ⟨r, request, hrequest, hwire, hdelivered, hmethod, hpath⟩ :=
    exists_ping haddress hsendable hdeliverable
  have hanswer : Peer.simulated now (arrivedRequest request) w.peer = (.response (pong s), s) := by
    rw [Peer.simulated, hw, handle_ping]
    · exact hmethod
    · exact hpath
  exact ping_of_answer hrequest hwire hdelivered hcancelled hanswer rfl

end Simulator
end TerraformCloud
