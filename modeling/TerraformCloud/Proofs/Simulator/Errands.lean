/-
  TerraformCloud/Proofs/Simulator/Errands.lean
  ============================================
  **What a request is about, before the data is looked at.**

  A request is settled by itself, or it asks a question, or it gives an order
  (`Errand.of`).  This much depends on the request alone.  Questions and orders of known
  callers then meet the data, and nothing else does (`handle_eq`): a question leaves the
  data as it is, and an order is carried out or refused.  `Done` says all that carrying
  it out can mean: what has to hold before, what is known afterwards, what is answered.

  So what the five kinds of orders preserve is preserved by every request
  (`handle_cases`), and by all requests that arrive one after the other
  (`deeds_induction`).  Which orders were carried out can be read off the requests and the
  statuses of their answers (`deeds`): exactly these are answered with success.
-/
import Mathlib.Data.List.Induction
import TerraformCloud.Proofs.Keyed
import TerraformCloud.Simulator.Serve

namespace TerraformCloud.Simulator

/-! ## 1. Questions and orders -/

inductive Question where
  | organizations (q : ListQuery)
  | organization (name : String)
  | workspaces (organization : String) (q : ListQuery)
  | workspace (organization name : String)
  | workspaceById (id : String)
deriving DecidableEq

def Question.answer (s : Store) : Question → Http.Response
  | .organizations q => listing s.organizations.values q
  | .organization name => (found s (s.organizations.find? name)).2
  | .workspaces owner q =>
    if (s.organizations.find? owner).isSome then listing (matching s owner q.search) q
    else notFound
  | .workspace owner name => (found s (s.findWorkspace? owner name)).2
  | .workspaceById id => (found s (s.workspaces.find? id)).2

inductive Order where
  | createOrganization (fields : newOrganizationFields.Record)
  | createWorkspace (organization : String) (fields : newWorkspaceFields.Record)
  | deleteOrganization (name : String)
  | deleteWorkspace (organization name : String)
  | setLock (id : String) (locked : Bool)
deriving DecidableEq

/-- What the service does about an order of a known caller. -/
def Order.obey (now : Instant) (s : Store) : Order → Store × Http.Response
  | createOrganization fields => Simulator.createOrganization now s fields
  | createWorkspace organization fields =>
    if (s.organizations.find? organization).isSome then
      Simulator.createWorkspace now s organization fields
    else (s, notFound)
  | deleteOrganization name =>
    if (s.organizations.find? name).isSome then (s.removeOrganization name, bare 204)
    else (s, notFound)
  | deleteWorkspace organization name =>
    match s.removeWorkspace organization name with
    | (some _, s) => (s, bare 204)
    | (none, s) => (s, notFound)
  | setLock id locked => Simulator.setLock s id locked

inductive Errand where
  /-- The answer needs nothing that the service knows. -/
  | settled (r : Http.Response)
  | ping
  | question (q : Question)
  | order (o : Order)
deriving DecidableEq

namespace Errand

/-- What a request is about at an endpoint that understands its method. -/
def understood (req : Http.Request) : Endpoint → Errand
  | .ping => .ping
  | .health => .settled (plain 200 "ok")
  | .organizations =>
    if req.method = .post then
      match incoming newOrganizationFields req with
      | .error r => .settled r
      | .ok fields => .order (.createOrganization fields)
    else
      match ListQuery.ofQuery? false req.url.query with
      | none => .settled (plain 400 "Failed to deserialize query string")
      | some q => .question (.organizations q)
  | .organization raw =>
    if req.method = .delete then .order (.deleteOrganization (unescapeName raw))
    else .question (.organization (unescapeName raw))
  | .workspaces raw =>
    if req.method = .post then
      match incoming newWorkspaceFields req with
      | .error r => .settled r
      | .ok fields => .order (.createWorkspace (unescapeName raw) fields)
    else
      match ListQuery.ofQuery? true req.url.query with
      | none => .settled (plain 400 "Failed to deserialize query string")
      | some q => .question (.workspaces (unescapeName raw) q)
  | .workspaceByName rawOrganization rawName =>
    if req.method = .delete then
      .order (.deleteWorkspace (unescapeName rawOrganization) (unescapeName rawName))
    else .question (.workspace (unescapeName rawOrganization) (unescapeName rawName))
  | .workspaceById id => .question (.workspaceById id)
  | .lock id => .order (.setLock id true)
  | .unlock id => .order (.setLock id false)

/-- The errand, if the endpoint understands the method. -/
def allowed (req : Http.Request) (e : Endpoint) (errand : Errand) : Errand :=
  if e.methods.contains req.method then errand else .settled (notAllowed e)

/-- What a request is about. -/
def of (req : Http.Request) : Errand :=
  match Endpoint.ofUrl req.url with
  | .unknown => .settled (bare 404)
  | .undecodable e => allowed req e (.settled (plain 400 "Invalid URL: Invalid UTF-8 in path"))
  | .endpoint e => allowed req e (understood req e)

/-- How an errand ends. -/
def run (now : Instant) (headers : Http.Headers) (s : Store) : Errand → Store × Http.Response
  | settled r => (s, r)
  | ping => (s, pong s)
  | question q => guarded s headers (s, q.answer s)
  | order o => guarded s headers (o.obey now s)

end Errand

/-- A question for the headers alone is answered without a body. -/
def asAsked (method : Http.Method) (r : Http.Response) : Http.Response :=
  if method = .head then { r with body := some [] } else r

section Requests

variable {now : Instant} {req : Http.Request} {s : Store}

theorem found_eq {α : Type} [Attributes α] (r : Option (Resource α)) : found s r = (s, (found s r).2) := by
  cases r <;> rfl

theorem serve_eq (e : Endpoint) :
    e.serve now req s = (Errand.understood req e).run now req.headers s := by
  cases e with
  | ping | health | lock id | unlock id => rfl
  | workspaceById id =>
    simp only [Endpoint.serve, Errand.understood, Errand.run, Question.answer, ← found_eq]
  | organizations =>
    simp only [Endpoint.serve, Errand.understood]
    by_cases hmethod : req.method = .post
    · cases hread : incoming newOrganizationFields req <;> simp [hmethod, Errand.run, Order.obey]
    · cases hread : ListQuery.ofQuery? false req.url.query <;>
        simp [hmethod, Errand.run, Question.answer]
  | organization raw =>
    simp only [Endpoint.serve, Errand.understood]
    by_cases hmethod : req.method = .delete
    · simp [hmethod, Errand.run, Order.obey]
    · simp only [hmethod, if_false, Errand.run, Question.answer, ← found_eq]
  | workspaces raw =>
    simp only [Endpoint.serve, Errand.understood]
    by_cases hmethod : req.method = .post
    · cases hread : incoming newWorkspaceFields req <;> simp [hmethod, Errand.run, Order.obey]
    · cases hread : ListQuery.ofQuery? true req.url.query with
      | none => simp [hmethod, Errand.run]
      | some q =>
        simp only [hmethod, if_false, Errand.run, Question.answer]
        split <;> rfl
  | workspaceByName rawOrganization rawName =>
    simp only [Endpoint.serve, Errand.understood]
    by_cases hmethod : req.method = .delete
    · rw [if_pos hmethod, if_pos hmethod]
      rfl
    · simp only [hmethod, if_false, Errand.run, Question.answer, ← found_eq]

theorem asAsked_of_empty {r : Http.Response} (h : r.body = some []) : asAsked req.method r = r := by
  obtain ⟨status, fields, body⟩ := r
  subst h
  unfold asAsked
  split <;> rfl

theorem answerAt_eq (e : Endpoint) (errand : Errand) :
    answerAt e req s (errand.run now req.headers s) =
      Prod.map id (asAsked req.method) ((Errand.allowed req e errand).run now req.headers s) := by
  unfold answerAt Errand.allowed
  by_cases hmethod : e.methods.contains req.method = true
  · rw [if_neg (by rw [hmethod]; decide), if_pos hmethod]
    by_cases hhead : req.method = .head
    · simp [hhead, asAsked, Prod.map]
    · simp [hhead, asAsked, Prod.map]
  · rw [if_pos (by simpa using hmethod), if_neg hmethod]
    exact Prod.ext rfl (asAsked_of_empty rfl).symm

/-- **The data is met by questions and orders alone.** -/
theorem handle_eq : handle now req s =
    Prod.map id (asAsked req.method) ((Errand.of req).run now req.headers s) := by
  unfold handle Errand.of
  cases Endpoint.ofUrl req.url with
  | unknown => exact Prod.ext rfl (asAsked_of_empty rfl).symm
  | undecodable e => exact answerAt_eq e (.settled _)
  | endpoint e =>
    dsimp only
    rw [serve_eq, answerAt_eq]

end Requests

/-! ## 2. Endpoints, where they are and what they are there for -/

/-- An endpoint is found at a path; what stands for a name there is unescaped. -/
inductive At : List String → Endpoint → Prop where
  | ping : At ["api", "v2", "ping"] .ping
  | health : At ["health"] .health
  | organizations : At ["api", "v2", "organizations"] .organizations
  | organization {t name : String} (hne : t ≠ "") (h : Percent.decode? t = some name) :
      At ["api", "v2", "organizations", t] (.organization name)
  | workspaces {t name : String} (hne : t ≠ "") (h : Percent.decode? t = some name) :
      At ["api", "v2", "organizations", t, "workspaces"] (.workspaces name)
  | workspaceByName {t u organization name : String} (hne : t ≠ "" ∧ u ≠ "")
      (h : Percent.decode? t = some organization ∧ Percent.decode? u = some name) :
      At ["api", "v2", "organizations", t, "workspaces", u] (.workspaceByName organization name)
  | workspaceById {t id : String} (hne : t ≠ "") (h : Percent.decode? t = some id) :
      At ["api", "v2", "workspaces", t] (.workspaceById id)
  | lock {t id : String} (hne : t ≠ "") (h : Percent.decode? t = some id) :
      At ["api", "v2", "workspaces", t, "actions", "lock"] (.lock id)
  | unlock {t id : String} (hne : t ≠ "") (h : Percent.decode? t = some id) :
      At ["api", "v2", "workspaces", t, "actions", "unlock"] (.unlock id)

section Paths

variable {e : Endpoint}

theorem capture_eq_endpoint {t : String} {make : String → Endpoint} :
    Endpoint.capture t make = .endpoint e ↔ t ≠ "" ∧ ∃ name, Percent.decode? t = some name ∧ make name = e := by
  unfold Endpoint.capture
  by_cases hempty : t.isEmpty = true
  · simp [String.isEmpty_iff.1 hempty]
  · have hne : t ≠ "" := fun heq => hempty (String.isEmpty_iff.2 heq)
    rw [if_neg hempty]
    cases hdecode : Percent.decode? t <;> simp [hne]

theorem capture2_eq_endpoint {t u : String} {make : String → String → Endpoint} :
    Endpoint.capture2 t u make = .endpoint e ↔ (t ≠ "" ∧ u ≠ "") ∧ ∃ first second,
      (Percent.decode? t = some first ∧ Percent.decode? u = some second) ∧ make first second = e := by
  unfold Endpoint.capture2
  by_cases hempty : (t.isEmpty || u.isEmpty) = true
  · have hsome : t = "" ∨ u = "" := by simpa using hempty
    rw [if_pos hempty]
    rcases hsome with rfl | rfl <;> simp
  · have hne : t ≠ "" ∧ u ≠ "" := by simpa using hempty
    rw [if_neg hempty]
    cases ht : Percent.decode? t <;> cases hu : Percent.decode? u <;> simp [hne]

/-- **What is matched at a path is found there.** -/
theorem ofSegments_eq_endpoint_iff {parts : List String} :
    Endpoint.ofSegments parts = .endpoint e ↔ At parts e := by
  constructor
  · intro h
    unfold Endpoint.ofSegments at h
    split at h
    · cases h
      exact .health
    · split at h
      · cases h
        exact .ping
      · cases h
        exact .organizations
      · obtain ⟨hne, name, hdecode, rfl⟩ := capture_eq_endpoint.1 h
        exact .organization hne hdecode
      · obtain ⟨hne, name, hdecode, rfl⟩ := capture_eq_endpoint.1 h
        exact .workspaces hne hdecode
      · obtain ⟨hne, organization, name, hdecode, rfl⟩ := capture2_eq_endpoint.1 h
        exact .workspaceByName hne hdecode
      · obtain ⟨hne, id, hdecode, rfl⟩ := capture_eq_endpoint.1 h
        exact .workspaceById hne hdecode
      · obtain ⟨hne, id, hdecode, rfl⟩ := capture_eq_endpoint.1 h
        exact .lock hne hdecode
      · obtain ⟨hne, id, hdecode, rfl⟩ := capture_eq_endpoint.1 h
        exact .unlock hne hdecode
      · cases h
    · cases h
  · intro h
    cases h with
    | ping | health | organizations => rfl
    | organization hne hdecode | workspaces hne hdecode | workspaceById hne hdecode
    | lock hne hdecode | unlock hne hdecode => exact capture_eq_endpoint.2 ⟨hne, _, hdecode, rfl⟩
    | workspaceByName hne hdecode => exact capture2_eq_endpoint.2 ⟨hne, _, _, hdecode, rfl⟩

theorem ofUrl_eq_endpoint_iff {u : Url} :
    Endpoint.ofUrl u = .endpoint e ↔ ∃ parts, u.path = .segments parts ∧ At parts e := by
  unfold Endpoint.ofUrl
  cases u.path with
  | segments parts => simp [ofSegments_eq_endpoint_iff]
  | rootless text => simp

end Paths

/-- The orders that a request can give at an endpoint. -/
inductive Ordered (req : Http.Request) : Endpoint → Order → Prop where
  | createOrganization {fields : newOrganizationFields.Record} (method : req.method = .post)
      (read : incoming newOrganizationFields req = .ok fields) :
      Ordered req .organizations (.createOrganization fields)
  | createWorkspace {raw : String} {fields : newWorkspaceFields.Record} (method : req.method = .post)
      (read : incoming newWorkspaceFields req = .ok fields) :
      Ordered req (.workspaces raw) (.createWorkspace (unescapeName raw) fields)
  | deleteOrganization {raw : String} (method : req.method = .delete) :
      Ordered req (.organization raw) (.deleteOrganization (unescapeName raw))
  | deleteWorkspace {rawOrganization rawName : String} (method : req.method = .delete) :
      Ordered req (.workspaceByName rawOrganization rawName)
        (.deleteWorkspace (unescapeName rawOrganization) (unescapeName rawName))
  | lock {id : String} (method : req.method = .post) : Ordered req (.lock id) (.setLock id true)
  | unlock {id : String} (method : req.method = .post) : Ordered req (.unlock id) (.setLock id false)

/-! ## 3. Orders that are carried out -/

/-- The id with a number of at least sixteen digits. -/
def workspaceId (number : Nat) : String :=
  let digits := Nat.toDigits 10 number
  "ws" ++ "-" ++ String.ofList (List.replicate (16 - digits.length) '0' ++ digits)

/-- An organization as it is created at some time. -/
def newOrganization (now : Instant) (name : String) :
    newOrganizationFields.Record → Resource Organization
  | (_, email, timeout, remember, ()) =>
    { id := name
      attributes :=
        { Recorded.zero Organization with
          name, email, createdAt := some now, sessionTimeout := timeout,
          sessionRemember := remember }
      relationships := .empty }

/-- A workspace as it is created at some time. -/
def newWorkspace (now : Instant) (id organization name : String) :
    newWorkspaceFields.Record → Resource Workspace
  | (_, description, autoApply, mode, version, tags, ()) =>
    { id
      attributes :=
        { Recorded.zero Workspace with
          name, description, autoApply := autoApply.getD false,
          executionMode := mode <|> some "remote", terraformVersion := version,
          tagNames := tags, speculativeEnabled := true, createdAt := some now }
      relationships := ownedBy organization }

/-- All that carrying out an order can do to the data, and what is answered. -/
inductive Done (now : Instant) (s : Store) : Order → Store → Http.Response → Prop where
  | organizationCreated {fields : newOrganizationFields.Record} {name : String}
      (given : fields.1 = some name) (nonempty : name ≠ "")
      (free : s.organizations.find? name = none) :
      Done now s (.createOrganization fields) (s.withOrganization (newOrganization now name fields))
        (single 201 (newOrganization now name fields))
  | workspaceCreated {organization name : String} {fields : newWorkspaceFields.Record}
      (known : (s.organizations.find? organization).isSome = true)
      (given : fields.1 = some name) (nonempty : name ≠ "")
      (free : s.findWorkspace? organization name = none) :
      Done now s (.createWorkspace organization fields)
        (Store.withWorkspace { s with nextNumber := s.nextNumber + 1 }
          (newWorkspace now (workspaceId s.nextNumber) organization name fields))
        (single 201 (newWorkspace now (workspaceId s.nextNumber) organization name fields))
  | organizationDeleted {name : String} (known : (s.organizations.find? name).isSome = true) :
      Done now s (.deleteOrganization name) (s.removeOrganization name) (bare 204)
  | workspaceDeleted {organization name : String} {w : Resource Workspace}
      (found : s.findWorkspace? organization name = some w)
      (stored : (s.workspaces.find? w.id).isSome = true) :
      Done now s (.deleteWorkspace organization name)
        { s with workspaces := s.workspaces.erase w.id } (bare 204)
  | lockSet {id : String} {locked : Bool} {w : Resource Workspace}
      (found : s.workspaces.find? id = some w) (other : w.attributes.locked ≠ locked) :
      Done now s (.setLock id locked)
        { s with workspaces := s.workspaces.insert id (setLocked w locked) }
        (single 200 (setLocked w locked))

/-- An order that is not carried out changes nothing and is told so. -/
structure Refused (s : Store) (result : Store × Http.Response) : Prop where
  same : result.1 = s
  told : ∃ status title detail, result.2 = failure status title detail ∧ 400 ≤ status ∧ status < 429

section Orders

variable {now : Instant} {s : Store}

theorem refused_failure {status : Http.Status} (title detail : String)
    (h : 400 ≤ status ∧ status < 429) :
    Refused s (s, failure status title detail) :=
  ⟨rfl, status, title, detail, rfl, h⟩

theorem refused_notFound : Refused s (s, notFound) := refused_failure "not found" "" (by decide)

theorem createOrganization_eq (fields : newOrganizationFields.Record) :
    createOrganization now s fields =
      match fields.1.filter (fun n => !n.isEmpty) with
      | none => (s, failure 422 "invalid attribute" "Name can't be blank")
      | some name =>
        if (s.organizations.find? name).isSome then
          (s, failure 422 "invalid attribute" "Name has already been taken")
        else
          (s.withOrganization (newOrganization now name fields),
            single 201 (newOrganization now name fields)) :=
  rfl

theorem createWorkspace_eq (organization : String) (fields : newWorkspaceFields.Record) :
    createWorkspace now s organization fields =
      match fields.1.filter (fun n => !n.isEmpty) with
      | none => (s, failure 422 "invalid attribute" "Name can't be blank")
      | some name =>
        if (s.findWorkspace? organization name).isSome then
          (s, failure 422 "invalid attribute" "Name has already been taken")
        else
          (Store.withWorkspace { s with nextNumber := s.nextNumber + 1 }
              (newWorkspace now (workspaceId s.nextNumber) organization name fields),
            single 201 (newWorkspace now (workspaceId s.nextNumber) organization name fields)) :=
  rfl

theorem createOrganization_cases (fields : newOrganizationFields.Record) :
    let result := createOrganization now s fields
    Done now s (.createOrganization fields) result.1 result.2 ∨ Refused s result := by
  dsimp only
  rw [createOrganization_eq]
  cases hname : fields.1.filter (fun n => !n.isEmpty) with
  | none =>
    right
    apply refused_failure
    decide
  | some name =>
    obtain ⟨hgiven, hne⟩ := Option.filter_eq_some_iff.1 hname
    dsimp only
    by_cases htaken : (s.organizations.find? name).isSome = true
    · rw [if_pos htaken]
      right
      apply refused_failure
      decide
    · rw [if_neg htaken]
      left
      exact .organizationCreated hgiven (by simpa using hne) (by simpa using htaken)

theorem createWorkspace_cases {organization : String} (fields : newWorkspaceFields.Record)
    (known : (s.organizations.find? organization).isSome = true) :
    let result := createWorkspace now s organization fields
    Done now s (.createWorkspace organization fields) result.1 result.2 ∨ Refused s result := by
  dsimp only
  rw [createWorkspace_eq]
  cases hname : fields.1.filter (fun n => !n.isEmpty) with
  | none =>
    right
    apply refused_failure
    decide
  | some name =>
    obtain ⟨hgiven, hne⟩ := Option.filter_eq_some_iff.1 hname
    dsimp only
    by_cases htaken : (s.findWorkspace? organization name).isSome = true
    · rw [if_pos htaken]
      right
      apply refused_failure
      decide
    · rw [if_neg htaken]
      left
      exact .workspaceCreated known hgiven (by simpa using hne) (by simpa using htaken)

theorem obey_create (now : Instant) {organization name : String} {fields : newWorkspaceFields.Record}
    (known : (s.organizations.find? organization).isSome = true) (given : fields.1 = some name)
    (nonempty : name ≠ "") (free : s.findWorkspace? organization name = none) :
    (Order.createWorkspace organization fields).obey now s =
      (Store.withWorkspace { s with nextNumber := s.nextNumber + 1 }
          (newWorkspace now (workspaceId s.nextNumber) organization name fields),
        single 201 (newWorkspace now (workspaceId s.nextNumber) organization name fields)) := by
  have hname : fields.1.filter (fun n => !n.isEmpty) = some name :=
    Option.filter_eq_some_iff.2 ⟨given, by simpa using nonempty⟩
  rw [Order.obey, if_pos known, createWorkspace_eq, hname]
  dsimp only
  rw [free, Option.isSome_none, if_neg Bool.false_ne_true]

theorem setLock_cases (id : String) (locked : Bool) :
    let result := setLock s id locked
    Done now s (.setLock id locked) result.1 result.2 ∨ Refused s result := by
  simp only [setLock]
  cases hfound : s.workspaces.find? id with
  | none => exact .inr refused_notFound
  | some w =>
    dsimp only
    by_cases hsame : w.attributes.locked = locked
    · rw [if_pos hsame]
      right
      apply refused_failure
      decide
    · rw [if_neg hsame]
      exact .inl (.lockSet hfound hsame)

/-- **An order is carried out or refused.** -/
theorem obey_cases (now : Instant) (s : Store) (o : Order) :
    Done now s o (o.obey now s).1 (o.obey now s).2 ∨ Refused s (o.obey now s) := by
  cases o with
  | createOrganization fields => exact createOrganization_cases fields
  | setLock id locked => exact setLock_cases id locked
  | createWorkspace organization fields =>
    simp only [Order.obey]
    by_cases known : (s.organizations.find? organization).isSome = true
    · rw [if_pos known]
      exact createWorkspace_cases fields known
    · rw [if_neg known]
      exact .inr refused_notFound
  | deleteOrganization name =>
    simp only [Order.obey]
    by_cases known : (s.organizations.find? name).isSome = true
    · rw [if_pos known]
      exact .inl (.organizationDeleted known)
    · rw [if_neg known]
      exact .inr refused_notFound
  | deleteWorkspace organization name =>
    simp only [Order.obey, Store.removeWorkspace]
    cases hfound : s.findWorkspace? organization name with
    | none => exact .inr refused_notFound
    | some w =>
      dsimp only
      cases hstored : s.workspaces.find? w.id with
      | some v =>
        left
        exact .workspaceDeleted hfound (by rw [hstored]; rfl)
      | none =>
        -- found, but not under its own id: there is nothing to take out
        rw [Keyed.erase_of_find?_none hstored]
        exact .inr refused_notFound

end Orders

/-! ## 4. Requests one after the other -/

/-- Whether an answer says that something was done. -/
def isDone (r : Http.Response) : Bool := 200 ≤ r.status && r.status < 300

/-- A request, with its answer. -/
abbrev Exchange := Http.Request × Http.Response

/-- The order that was carried out, as a request and its answer tell. -/
def deed? (x : Exchange) : Option (Order × Http.Response) :=
  match Errand.of x.1 with
  | .order o => if isDone x.2 then some (o, x.2) else none
  | _ => none

/-- The orders that were carried out. -/
def deeds (log : List Exchange) : List (Order × Http.Response) := log.filterMap deed?

/-- A request that arrives at some time. -/
abbrev Arrival := Instant × Http.Request

/-- The data after all of these requests. -/
def after (s : Store) (arrivals : List Arrival) : Store :=
  arrivals.foldl (fun s a => (handle a.1 a.2 s).1) s

/-- The requests, each with its answer. -/
def exchanges (s : Store) : List Arrival → List Exchange
  | [] => []
  | a :: rest => (a.2, (handle a.1 a.2 s).2) :: exchanges (handle a.1 a.2 s).1 rest

section Runs

variable {now : Instant} {req : Http.Request} {s s' : Store} {o : Order} {r : Http.Response}

theorem Done.isDone (h : Done now s o s' r) : isDone r = true := by
  cases h <;> rfl

theorem Refused.isDone {result : Store × Http.Response} (h : Refused s result) :
    isDone result.2 = false := by
  obtain ⟨status, title, detail, hresult, hstatus, -⟩ := h.told
  rw [hresult]
  have hlarge : ¬status < 300 := by
    apply Nat.not_lt.2
    exact Nat.le_trans (by decide) hstatus
  change (decide (200 ≤ status) && decide (status < 300)) = false
  rw [decide_eq_false hlarge, Bool.and_false]

theorem allowed_eq_order {e : Endpoint} {errand : Errand} (h : Errand.allowed req e errand = .order o) :
    e.methods.contains req.method = true ∧ errand = .order o := by
  unfold Errand.allowed at h
  by_cases hmethod : e.methods.contains req.method = true
  · rw [if_pos hmethod] at h
    exact ⟨hmethod, h⟩
  · rw [if_neg hmethod] at h
    cases h

theorem ordered_of_understood {e : Endpoint} (hmethod : e.methods.contains req.method = true)
    (h : Errand.understood req e = .order o) : Ordered req e o := by
  cases e with
  | ping | health | workspaceById id => cases h
  | lock id =>
    cases h
    exact .lock (by simpa [Endpoint.methods] using hmethod)
  | unlock id =>
    cases h
    exact .unlock (by simpa [Endpoint.methods] using hmethod)
  | organizations =>
    simp only [Errand.understood] at h
    split at h
    · split at h
      · cases h
      · cases h
        exact .createOrganization ‹_› ‹_›
    · split at h <;> cases h
  | workspaces raw =>
    simp only [Errand.understood] at h
    split at h
    · split at h
      · cases h
      · cases h
        exact .createWorkspace ‹_› ‹_›
    · split at h <;> cases h
  | organization raw =>
    simp only [Errand.understood] at h
    split at h
    · cases h
      exact .deleteOrganization ‹_›
    · cases h
  | workspaceByName rawOrganization rawName =>
    simp only [Errand.understood] at h
    split at h
    · cases h
      exact .deleteWorkspace ‹_›
    · cases h

/-- **Orders are given at endpoints**, by what the endpoint is there for. -/
theorem ordered_of_order (h : Errand.of req = .order o) :
    ∃ parts e, req.url.path = .segments parts ∧ At parts e ∧ Ordered req e o := by
  unfold Errand.of at h
  split at h
  · cases h
  · cases (allowed_eq_order h).2
  · next e hendpoint =>
    obtain ⟨hmethod, hunderstood⟩ := allowed_eq_order h
    obtain ⟨parts, hpath, hat⟩ := ofUrl_eq_endpoint_iff.1 hendpoint
    exact ⟨parts, e, hpath, hat, ordered_of_understood hmethod hunderstood⟩

theorem method_of_order (h : Errand.of req = .order o) : req.method = .post ∨ req.method = .delete := by
  obtain ⟨parts, e, -, -, hordered⟩ := ordered_of_order h
  cases hordered with
  | createOrganization method | createWorkspace method | lock method | unlock method => exact .inl method
  | deleteOrganization method | deleteWorkspace method => exact .inr method

theorem asAsked_of_order (h : Errand.of req = .order o) : asAsked req.method r = r := by
  apply if_neg
  rcases method_of_order h with hmethod | hmethod <;> rw [hmethod] <;> decide

theorem handle_of_order (h : Errand.of req = .order o) :
    handle now req s = guarded s req.headers (o.obey now s) := by
  rw [handle_eq, h, Errand.run, Prod.map, asAsked_of_order h]
  rfl

theorem deed?_of_order (h : Errand.of req = .order o) :
    deed? (req, r) = if isDone r = true then some (o, r) else none := by
  rw [deed?, h]

/-- **What is no order changes nothing.** -/
theorem same_of_no_order (h : ∀ o, Errand.of req ≠ .order o) : (handle now req s).1 = s := by
  rw [handle_eq]
  cases herrand : Errand.of req with
  | settled r => rfl
  | ping => rfl
  | question q =>
    simp only [Errand.run, guarded, Prod.map]
    split <;> rfl
  | order o => exact absurd herrand (h o)

theorem deed?_of_no_order (h : ∀ o, Errand.of req ≠ .order o) : deed? (req, r) = none := by
  rw [deed?]
  split
  · next o heq => exact absurd heq (h o)
  · rfl

/-- **A request carries out an order, or it changes nothing.** -/
theorem handle_cases (now : Instant) (req : Http.Request) (s : Store) :
    (∃ o, deed? (req, (handle now req s).2) = some (o, (handle now req s).2) ∧
      Done now s o (handle now req s).1 (handle now req s).2) ∨
    (deed? (req, (handle now req s).2) = none ∧ (handle now req s).1 = s) := by
  by_cases horder : ∃ o, Errand.of req = .order o
  · obtain ⟨o, herrand⟩ := horder
    rw [handle_of_order herrand, deed?_of_order herrand, guarded]
    by_cases hcaller : isAuthorized s req.headers = true
    · rw [if_pos hcaller]
      rcases obey_cases now s o with hdone | hrefused
      · exact .inl ⟨o, if_pos hdone.isDone, hdone⟩
      · exact .inr ⟨if_neg (by simp [hrefused.isDone]), hrefused.same⟩
    · rw [if_neg hcaller]
      exact .inr ⟨rfl, rfl⟩
  · have hnone : ∀ o, Errand.of req ≠ .order o := not_exists.1 horder
    exact .inr ⟨deed?_of_no_order hnone, same_of_no_order hnone⟩

theorem order_of_deed? {x : Exchange} {d : Order × Http.Response} (h : deed? x = some d) :
    Errand.of x.1 = .order d.1 := by
  rw [deed?] at h
  split at h
  · next o herrand =>
    split at h
    · cases h
      exact herrand
    · cases h
  · cases h

theorem isDone_of_deed?_eq_none {x : Exchange} (h : deed? x = none) (herrand : Errand.of x.1 = .order o) :
    isDone x.2 = false := by
  rw [deed?, herrand] at h
  by_cases hdone : isDone x.2 = true
  · simp [hdone] at h
  · simpa using hdone

theorem after_concat (s : Store) (arrivals : List Arrival) (a : Arrival) :
    after s (arrivals ++ [a]) = (handle a.1 a.2 (after s arrivals)).1 := by
  simp [after]

theorem exchanges_concat (s : Store) (arrivals : List Arrival) (a : Arrival) :
    exchanges s (arrivals ++ [a]) =
      exchanges s arrivals ++ [(a.2, (handle a.1 a.2 (after s arrivals)).2)] := by
  induction arrivals generalizing s with
  | nil => rfl
  | cons b arrivals ih =>
    simp only [List.cons_append, exchanges, ih]
    rfl

theorem deeds_concat (log : List Exchange) (x : Exchange) :
    deeds (log ++ [x]) = deeds log ++ (deed? x).toList := by
  rw [deeds, List.filterMap_append]
  cases hdeed : deed? x <;> simp [deeds, hdeed]

/-- **What holds at first, and is kept by whatever is carried out, holds after all
    requests**, together with what has been carried out until then. -/
theorem deeds_induction {P : Store → List (Order × Http.Response) → Prop} {start : Store}
    (initially : P start [])
    (carried : ∀ {now s done o s' r}, P s done → Done now s o s' r → P s' (done ++ [(o, r)]))
    (arrivals : List Arrival) : P (after start arrivals) (deeds (exchanges start arrivals)) := by
  induction arrivals using List.reverseRecOn with
  | nil => exact initially
  | append_singleton arrivals a ih =>
    rw [after_concat, exchanges_concat, deeds_concat]
    rcases handle_cases a.1 a.2 (after start arrivals) with ⟨o, hdeed, hdone⟩ | ⟨hdeed, hsame⟩
    · rw [hdeed]
      exact carried ih hdone
    · rw [hdeed, hsame, Option.toList_none, List.append_nil]
      exact ih

end Runs

end TerraformCloud.Simulator
