/-
  TerraformCloud/Proofs/Simulator/Calls.lean
  ==========================================
  **What calls do to a service.**

  No answer of the service asks for another attempt (`handle_final`), so a call sends its
  request once and takes what comes back, or never gets as far as that, perhaps because the
  request cannot be delivered (`Caller.perform_cases`).  What a call does to the service is therefore what its request
  does, and of the requests that operations stand for only those count that the service
  understands as orders (`Issues`).

  Many callers may call one after the other (`Calls`).  What holds at first, and is kept by
  every order that the operations among these calls are understood as, holds after all of
  them (`Calls.keeps`); callers that only look change nothing.
-/
import TerraformCloud.Proofs.Simulator.Calling
import TerraformCloud.Proofs.Simulator.Sound

namespace TerraformCloud.Simulator

/-! ## 1. Answers are final -/

/-- An answer after which no other attempt is made. -/
def IsFinal (r : Http.Response) : Prop :=
  r.status ≠ RetryPolicy.tooManyRequests ∧ Http.isServerError r.status = false

section Final

variable {now : Instant} {req : Http.Request} {s s' : Store} {o : Order} {r : Http.Response}

theorem isFinal_of_lt (h : r.status < 429) : IsFinal r := by
  constructor
  · exact Nat.ne_of_lt h
  · have hsmall : ¬500 ≤ r.status := Nat.not_le.2 (Nat.lt_trans h (by decide))
    simp [Http.isServerError, hsmall]

theorem status_of_incoming {fields : Schema.Fields} (h : incoming fields req = .error r) :
    r.status < 429 := by
  unfold incoming at h
  dsimp only at h
  repeat' split at h
  all_goals cases h
  all_goals simp [plain]

theorem status_of_understood {e : Endpoint} (h : Errand.understood req e = .settled r) :
    r.status < 429 := by
  cases e with
  | ping | workspaceById id | lock id | unlock id => cases h
  | health =>
    cases h
    simp [plain]
  | organization raw | workspaceByName rawOrganization rawName =>
    simp only [Errand.understood] at h
    split at h <;> cases h
  | organizations | workspaces raw =>
    simp only [Errand.understood] at h
    split at h
    · split at h
      · cases h
        exact status_of_incoming ‹_›
      · cases h
    · split at h
      · cases h
        simp [plain]
      · cases h

theorem status_of_allowed {e : Endpoint} {errand : Errand} (h : Errand.allowed req e errand = .settled r)
    (hmeant : errand = .settled r → r.status < 429) : r.status < 429 := by
  unfold Errand.allowed at h
  split at h
  · exact hmeant h
  · cases h
    simp [notAllowed]

theorem status_of_settled (h : Errand.of req = .settled r) : r.status < 429 := by
  unfold Errand.of at h
  split at h
  · cases h
    simp [bare]
  · refine status_of_allowed h fun hsettled => ?_
    cases hsettled
    simp [plain]
  · exact status_of_allowed h status_of_understood

theorem status_found {α : Type} [Attributes α] (x : Option (Resource α)) :
    (found s x).2.status = 200 ∨ (found s x).2.status = 404 := by
  cases x with
  | none => exact .inr rfl
  | some r => exact .inl rfl

theorem status_answer (s : Store) (q : Question) : (q.answer s).status = 200 ∨ (q.answer s).status = 404 := by
  cases q with
  | organizations query => exact .inl rfl
  | organization name => exact status_found _
  | workspace organization name => exact status_found _
  | workspaceById id => exact status_found _
  | workspaces organization query =>
    rw [Question.answer]
    split
    · exact .inl rfl
    · exact .inr rfl

theorem status_obey (now : Instant) (s : Store) (o : Order) : (o.obey now s).2.status < 429 := by
  rcases obey_cases now s o with hdone | hrefused
  · generalize (o.obey now s).1 = s', (o.obey now s).2 = r at hdone
    cases hdone <;> simp [single, document, bare]
  · obtain ⟨status, title, detail, hresult, -, hstatus⟩ := hrefused.told
    rw [hresult]
    exact hstatus

theorem status_guarded {answer : Store × Http.Response} (h : answer.2.status < 429) :
    (guarded s req.headers answer).2.status < 429 := by
  rw [guarded]
  split
  · exact h
  · simp [failure, document]

@[simp] theorem status_asAsked (method : Http.Method) : (asAsked method r).status = r.status := by
  rw [asAsked]
  split <;> rfl

/-- **No answer asks for another attempt.** -/
theorem handle_final (now : Instant) (req : Http.Request) (s : Store) : IsFinal (handle now req s).2 := by
  apply isFinal_of_lt
  simp only [handle_eq, Prod.map, status_asAsked]
  cases herrand : Errand.of req with
  | settled r => exact status_of_settled herrand
  | ping => simp [Errand.run, pong]
  | order o => exact status_guarded (status_obey now s o)
  | question q =>
    apply status_guarded
    rcases status_answer s q with hstatus | hstatus <;> simp [hstatus]

end Final

/-! ## 2. Requests as they arrive -/

/-- What the service sees of a request that a client sends. -/
structure Arrived (c : Client) (r : ApiRequest) (req : Http.Request) : Prop where
  method : req.method = r.method
  path : req.url.path = r.address.path
  body : req.body = r.sentBody.map Body.bytes
  media : ∀ b, r.sentBody = some b → req.headers.find? "content-type" = some b.format.mediaType
  caller : r.authenticated = true → ∀ s, isAuthorized s req.headers = isKnown s c.token

theorem arrivedValue_mediaType (f : BodyFormat) : arrivedValue f.mediaType = f.mediaType := by
  cases f <;> decide +kernel

/-- The media type of a body is told. -/
theorem find?_contentType {c : Client} {r : ApiRequest} {headers : Http.Headers}
    (h : r.headers c = .ok headers) {b : Body} (hb : r.sentBody = some b) :
    headers.find? "content-type" = some b.format.mediaType := by
  unfold ApiRequest.headers at h
  dsimp only at h
  rw [hb, Option.map_some] at h
  split at h
  · cases h
  · cases h
    simp

/-- A client whose secret cannot be sent sends nothing that tells who is calling. -/
theorem isFieldValue_of_headers {c : Client} {r : ApiRequest} {headers : Http.Headers}
    (h : r.headers c = .ok headers) (hcaller : r.authenticated = true) :
    Http.isFieldValue c.token = true := by
  unfold ApiRequest.headers at h
  dsimp only at h
  rw [hcaller, Bool.true_and] at h
  split at h
  · cases h
  · next hsendable =>
    rw [Bool.not_eq_true', Bool.not_eq_false, Http.isFieldValue, String.toList_append,
      List.all_append, Bool.and_eq_true] at hsendable
    exact hsendable.2

theorem arrived_of_wire {c : Client} {r : ApiRequest} {request : Http.Request}
    (h : r.wire c = .ok request) : Arrived c r (arrivedRequest request) := by
  obtain ⟨headers, hheaders, rfl⟩ := r.wire_eq h
  refine ⟨Http.Request.of_method _ _ _ _, ?_, Http.Request.of_body _ _ _ _, ?_, ?_⟩
  · exact (Http.Request.of_path _ _ _ _).trans r.url_path
  · intro b hb
    change (arrivedHeaders (Http.Request.of _ _ _ _).headers).find? _ = _
    rw [find?_arrivedHeaders, Http.Request.of_headers, if_neg (by decide), find?_contentType hheaders hb,
      Option.map_some, arrivedValue_mediaType]
  · intro hcaller s
    obtain ⟨headers', hheaders', hfind⟩ := ApiRequest.headers_authenticated hcaller
      (isFieldValue_of_headers hheaders hcaller)
    rw [hheaders, Except.ok.injEq] at hheaders'
    subst hheaders'
    apply isAuthorized_arrived
    rw [Http.Request.of_headers, if_pos rfl, hfind]
    rfl

/-- A service understands an operation as an order. -/
def Issues (c : Client) (op : Operation) (o : Order) : Prop :=
  ∃ r request, op.request c = .ok r ∧ r.wire c = .ok request ∧ Errand.of (arrivedRequest request) = .order o

/-! ## 3. One call -/

/-- Somebody who calls: a client, at a time, in a world.  An observer of its retries leaves
    the service alone. -/
structure Caller where
  client : Client
  now : Instant
  interruptible : Bool
  observer : Option (RetryEvent → World Store → World Store)
  quiet : ∀ f ∈ observer, ∀ event w, (f event w).peer = w.peer
  world : World Store

namespace Caller

/-- The world as the client sees it. -/
@[reducible] def line (x : Caller) : Link (World Store) := link x.now x.interruptible x.observer

/-- The service that is called. -/
def store (x : Caller) : Store := x.world.peer

/-- What comes of a request, and the service afterwards. -/
def send (x : Caller) (r : ApiRequest) : Except ApiError Http.Response × Store :=
  Prod.map id World.peer (x.line.send x.client r x.world)

/-- What comes of an operation, and the service afterwards. -/
def perform (x : Caller) (op : Operation) : Except ApiError op.answer.Value × Store :=
  Prod.map id World.peer (op.perform x.line x.client x.world)

/-- What a walk through all pages of a list brings, and the service afterwards. -/
def collect (x : Caller) (kind : Kind) (l : Listing) :
    Except ApiError (List (Resource kind.Attributes)) × Store :=
  Prod.map id World.peer (l.collect x.line x.client kind x.world)

/-- The client expects the service where it is. -/
structure Reaches (x : Caller) : Prop where
  path : x.client.apiUrl.path = .segments ["api", "v2", ""]
  scheme : x.client.apiUrl.scheme ≠ Url.fileScheme

variable (x : Caller)

/-- A request that can be delivered is answered at the first attempt. -/
theorem send_of_wire {r : ApiRequest} {request : Http.Request} (hwire : r.wire x.client = .ok request)
    (hdeliverable : request.isDeliverable = true) (hgoes : x.line.cancelled x.world = false) :
    x.send r = (checkResponse (arrivedResponse (handle x.now (arrivedRequest request) x.store).2),
      (handle x.now (arrivedRequest request) x.store).1) := by
  obtain ⟨w', hsend, hpeer, -⟩ := Rehearsal.send_of_final hwire hdeliverable hgoes rfl
    (handle_final x.now (arrivedRequest request) x.store)
  rw [send, hsend, Prod.map, hpeer]
  rfl

/-- **The service does not hear of a request that cannot be delivered.** -/
theorem send_of_undeliverable {r : ApiRequest} {request : Http.Request}
    (hwire : r.wire x.client = .ok request) (h : request.isDeliverable = false) :
    ∃ e, x.send r = (.error e, x.store) := by
  have hloses : x.line.Loses request fun w => w.peer = x.store := Rehearsal.loses h x.quiet x.store
  obtain ⟨e, w', hsend, hpeer⟩ := hloses.send hwire (s := x.world) rfl
  exact ⟨e, by rw [send, hsend, Prod.map, hpeer]; rfl⟩

/-- **A request is answered once, or does not arrive at all.** -/
theorem send_cases (r : ApiRequest) :
    (∃ request, r.wire x.client = .ok request ∧ x.line.cancelled x.world = false ∧
      x.send r = (checkResponse (arrivedResponse (handle x.now (arrivedRequest request) x.store).2),
        (handle x.now (arrivedRequest request) x.store).1)) ∨
    ∃ e, x.send r = (.error e, x.store) := by
  cases hwire : r.wire x.client with
  | error e =>
    right
    refine ⟨e, ?_⟩
    rw [send, Link.send, hwire]
    rfl
  | ok request =>
    by_cases hcancelled : x.line.cancelled x.world = true
    · right
      refine ⟨.cancelled, ?_⟩
      rw [send, Link.send, hwire]
      dsimp only
      rw [Link.sendFrom, if_pos hcancelled]
      rfl
    · have hgoes : x.line.cancelled x.world = false := by simpa using hcancelled
      cases hdeliverable : request.isDeliverable with
      | true => exact .inl ⟨request, rfl, hgoes, x.send_of_wire hwire hdeliverable hgoes⟩
      | false => exact .inr (x.send_of_undeliverable hwire hdeliverable)

theorem perform_of_request {op : Operation} {r : ApiRequest} (hr : op.request x.client = .ok r) :
    x.perform op = ((x.send r).1.bind op.answer.read, (x.send r).2) := by
  rw [perform, Operation.perform, hr]
  dsimp only
  rw [send, Link.fetch]
  generalize x.line.send x.client r x.world = result
  obtain ⟨answer, w⟩ := result
  cases answer <;> rfl

/-- **An operation is performed by one request**, or the service does not hear of it. -/
theorem perform_cases (op : Operation) :
    (∃ r request, op.request x.client = .ok r ∧ r.wire x.client = .ok request ∧
      x.line.cancelled x.world = false ∧
      x.perform op = ((checkResponse (arrivedResponse
          (handle x.now (arrivedRequest request) x.store).2)).bind op.answer.read,
        (handle x.now (arrivedRequest request) x.store).1)) ∨
    ∃ e, x.perform op = (.error e, x.store) := by
  cases hr : op.request x.client with
  | error e =>
    right
    refine ⟨e, ?_⟩
    rw [perform, Operation.perform, hr]
    rfl
  | ok r =>
    rw [perform_of_request x hr]
    rcases x.send_cases r with ⟨request, hwire, hgoes, hsend⟩ | ⟨e, hsend⟩
    · left
      exact ⟨r, request, rfl, hwire, hgoes, by rw [hsend]⟩
    · right
      exact ⟨e, by rw [hsend]; rfl⟩

theorem send_get {r : ApiRequest} (h : r.method = .get) : (x.send r).2 = x.store := by
  rcases x.send_cases r with ⟨request, hwire, -, hsend⟩ | ⟨e, hsend⟩
  · have hmethod : (arrivedRequest request).method = .get := (arrived_of_wire hwire).method.trans h
    rw [hsend]
    apply same_of_no_order
    intro o ho
    rcases method_of_order ho with hpost | hdelete
    · exact absurd (hmethod.symm.trans hpost) (by decide)
    · exact absurd (hmethod.symm.trans hdelete) (by decide)
  · rw [hsend]

end Caller

/-! ## 4. Calls one after the other -/

/-- The services that calls may lead to: anybody may perform operations that are allowed,
    and send requests that only look, such as a ping or a walk through the pages of a list. -/
inductive Calls (allowed : Caller → Operation → Prop) (s : Store) : Store → Prop where
  | none : Calls allowed s s
  | perform {x : Caller} {op : Operation} (before : Calls allowed s x.store) (h : allowed x op) :
      Calls allowed s (x.perform op).2
  | look {x : Caller} {r : ApiRequest} (before : Calls allowed s x.store) (h : r.method = .get) :
      Calls allowed s (x.send r).2

namespace Calls

variable {allowed : Caller → Operation → Prop} {s s' : Store}

/-- **What every order keeps that is given, calls keep.** -/
theorem keeps {P : Store → Prop} (h : Calls allowed s s') (hs : P s)
    (carried : ∀ {x : Caller} {op : Operation} {o : Order} {s' : Store} {answer : Http.Response},
      P x.store → allowed x op → Issues x.client op o → Done x.now x.store o s' answer → P s') :
    P s' := by
  induction h with
  | none => exact hs
  | look before hget ih =>
    rw [Caller.send_get _ hget]
    exact ih
  | @perform x op before hallowed ih =>
    -- a call that reached the service gave an order or changed nothing
    rcases x.perform_cases op with ⟨r, request, hr, hwire, -, hperform⟩ | ⟨e, hperform⟩
    · rw [hperform]
      rcases handle_cases x.now (arrivedRequest request) x.store with ⟨o, hdeed, hdone⟩ | ⟨-, hsame⟩
      · exact carried ih hallowed ⟨r, request, hr, hwire, order_of_deed? hdeed⟩ hdone
      · dsimp only
        rw [hsame]
        exact ih
    · rw [hperform]
      exact ih

theorem sound (h : Calls allowed s s') (hs : Sound s) : Sound s' :=
  h.keeps hs fun hs _ _ hdone => hdone.sound hs

theorem requiredToken (h : Calls allowed s s') : s'.requiredToken = s.requiredToken := by
  refine h.keeps (P := fun s' => s'.requiredToken = s.requiredToken) rfl fun hs _ _ hdone => ?_
  cases hdone <;> exact hs

end Calls

end TerraformCloud.Simulator
