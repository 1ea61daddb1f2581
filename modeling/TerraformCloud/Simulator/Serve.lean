/-
  TerraformCloud/Simulator/Serve.lean
  ===================================
  **How a simulated service answers.**

  A request goes through the same gates in the same order everywhere: is there such a
  path and method, can what it carries be read, is the caller known; only then does it
  meet the data.  Each gate answers by itself, so what lies behind it cannot show.
-/
import TerraformCloud.Json.Printer
import TerraformCloud.Schema.Recorded
import TerraformCloud.Simulator.Endpoint
import TerraformCloud.Simulator.Scenario
import TerraformCloud.Error

namespace TerraformCloud.Simulator

open Json (Value Written)

/-! ### Answers -/

/-- An answer without a body. -/
def bare (status : Http.Status) : Http.Response := ⟨status, [], some []⟩

def plain (status : Http.Status) (text : String) : Http.Response :=
  ⟨status, [("content-type", "text/plain; charset=utf-8")], some (Utf8.encode text)⟩

def document (status : Http.Status) (v : Value) : Http.Response :=
  ⟨status, [("content-type", "application/vnd.api+json")], some (Utf8.encode v.ordered.compact)⟩

/-- A resource with its type. -/
def typed {α : Type} [Attributes α] (r : Resource α) : Value :=
  match r.write with
  | .object members => .object (("type", .string (Attributes.type α)) :: members)
  | v => v

def single {α : Type} [Attributes α] (status : Http.Status) (r : Resource α) : Http.Response :=
  document status (.object [("data", typed r)])

def failure (status : Http.Status) (title detail : String) : Http.Response :=
  document status (.object [("errors", .array [.object
    [("status", .string (toString status)), ("title", .string title), ("detail", .string detail)]])])

def notFound : Http.Response := failure 404 "not found" ""

/-- The least number of pages that hold `total` items. -/
def pageCount (total size : Nat) : Nat := (total + size - 1) / size

/-- The items of a page. -/
def pageItems {α : Type} (items : List α) (number size : Nat) : List α :=
  (items.drop ((number - 1) * size)).take size

/-- An answer that is one page of a list. -/
def listing {α : Type} [Attributes α] (items : List (Resource α)) (q : ListQuery) : Http.Response :=
  let number := q.pageNumber
  let pages := pageCount items.length q.pageSize
  document 200 (.object
    [("data", .array ((pageItems items number q.pageSize).map typed)),
     ("meta", .object [("pagination", .object
       [("current-page", Value.nat number),
        ("prev-page", if 1 < number then Value.nat (number - 1) else .null),
        ("next-page", if number < pages then Value.nat (number + 1) else .null),
        ("total-pages", Value.nat pages), ("total-count", Value.nat items.length)])])])

/-! ### Gates -/

/-- Whether the caller shows the secret that is asked for. -/
def isAuthorized (s : Store) (headers : Http.Headers) : Bool :=
  match s.requiredToken with
  | none => true
  | some token =>
    match headers.find? "authorization" with
    | some value => Http.isPlainValue value && value = "Bearer " ++ token
    | none => false

/-- Lets known callers through. -/
def guarded (s : Store) (headers : Http.Headers) (serve : Store × Http.Response) :
    Store × Http.Response :=
  if isAuthorized s headers then serve else (s, failure 401 "unauthorized" "")

/-- Whether a media type is JSON, or built on it. -/
def isJsonType (value : String) : Bool :=
  let essence := String.ofList (trimBlanks (value.toList.takeWhile (· ≠ ';')))
  match splitChars '/' (essence.toLower.toList) with
  | [type, subtype] =>
    type = "application".toList && (subtype = "json".toList || "+json".toList.isSuffixOf subtype)
  | _ => false

/-- Reads the body of a request: it has to be called JSON, be JSON, and have the shape
    of a document with these attributes.  What follows the document is not looked at. -/
def incoming (fields : Schema.Fields) (req : Http.Request) :
    Except Http.Response fields.Record :=
  if !((req.headers.find? "content-type").any isJsonType) then
    .error (plain 415 "Expected request with `Content-Type: application/json`")
  else
    match Json.front? (req.body.getD []) with
    | none => .error (plain 400 "Failed to parse the request body as JSON")
    | some (w, _) =>
      let resource : Schema.Fields := .ofList
        [("type", .required, .text), ("attributes", .required, .record fields)]
      let shape : Schema.FieldType := .record (.ofList [("data", .required, .record resource)])
      match shape.read? Written.depthLimit w with
      | some ((_, attributes, ()), ()) => .ok attributes
      | none => .error (plain 422 "Failed to deserialize the JSON body into the target type")

/-- A name as it was meant when it is escaped once more inside the path. -/
def unescapeName (name : String) : String := (Percent.decode? name).getD name

/-! ### Creating -/

def newOrganizationFields : Schema.Fields := .ofList
  [("name", .omittable, .optional .text), ("email", .omittable, .optional .text),
   ("session-timeout", .omittable, .optional .natural32),
   ("session-remember", .omittable, .optional .natural32)]

/-- Creates an organization under a name that is not taken. -/
def createOrganization (now : Instant) (s : Store) (fields : newOrganizationFields.Record) :
    Store × Http.Response :=
  let (name, email, timeout, remember, ()) := fields
  match name.filter (fun n => !n.isEmpty) with
  | none => (s, failure 422 "invalid attribute" "Name can't be blank")
  | some name =>
    if (s.organizations.find? name).isSome then
      (s, failure 422 "invalid attribute" "Name has already been taken")
    else
      let o : Resource Organization :=
        { id := name
          attributes :=
            { Recorded.zero Organization with
              name, email, createdAt := some now, sessionTimeout := timeout,
              sessionRemember := remember }
          relationships := .empty }
      (s.withOrganization o, single 201 o)

def newWorkspaceFields : Schema.Fields := .ofList
  [("name", .omittable, .optional .text), ("description", .omittable, .optional .text),
   ("auto-apply", .omittable, .optional .flag), ("execution-mode", .omittable, .optional .text),
   ("terraform-version", .omittable, .optional .text), ("tag-names", .defaulted, .list .text)]

/-- Creates a workspace of an organization, under a name that is not taken there. -/
def createWorkspace (now : Instant) (s : Store) (organization : String)
    (fields : newWorkspaceFields.Record) : Store × Http.Response :=
  let (name, description, autoApply, mode, version, tags, ()) := fields
  match name.filter (fun n => !n.isEmpty) with
  | none => (s, failure 422 "invalid attribute" "Name can't be blank")
  | some name =>
    if (s.findWorkspace? organization name).isSome then
      (s, failure 422 "invalid attribute" "Name has already been taken")
    else
      let (id, s) := s.newId "ws"
      let w : Resource Workspace :=
        { id
          attributes :=
            { Recorded.zero Workspace with
              name, description, autoApply := autoApply.getD false,
              executionMode := mode <|> some "remote", terraformVersion := version,
              tagNames := tags, speculativeEnabled := true, createdAt := some now }
          relationships := ownedBy organization }
      (s.withWorkspace w, single 201 w)

/-! ### Serving -/

/-- Locks or unlocks a workspace that is not so already. -/
def setLock (s : Store) (id : String) (locked : Bool) : Store × Http.Response :=
  match s.workspaces.find? id with
  | none => (s, notFound)
  | some w =>
    if w.attributes.locked = locked then
      (s, failure 409 "conflict"
        (if locked then "Workspace is already locked" else "Workspace is already unlocked"))
    else
      let w := setLocked w locked
      ({ s with workspaces := s.workspaces.insert id w }, single 200 w)

/-- The workspaces of an organization whose names contain a text. -/
def matching (s : Store) (organization : String) (search : Option String) : List (Resource Workspace) :=
  (s.workspacesOf organization).filter fun w =>
    search.all fun text => Query.occursIn text.toList w.attributes.name.toList

def pong (s : Store) : Http.Response :=
  let version :=
    if Http.isFieldValue s.apiVersion then [("tfp-api-version", s.apiVersion)] else []
  let limit := s.rateLimit.elim [] fun n => [("x-ratelimit-limit", toString n)]
  ⟨204, version ++ limit, some []⟩

/-- Answers for one resource, if it is there. -/
def found {α : Type} [Attributes α] (s : Store) : Option (Resource α) → Store × Http.Response
  | some r => (s, single 200 r)
  | none => (s, notFound)

/-- Answers a request whose method the endpoint understands. -/
def Endpoint.serve (now : Instant) (e : Endpoint) (req : Http.Request) (s : Store) :
    Store × Http.Response :=
  let ask := guarded s req.headers
  match e with
  | ping => (s, pong s)
  | health => (s, plain 200 "ok")
  | organizations =>
    if req.method = .post then
      match incoming newOrganizationFields req with
      | .error r => (s, r)
      | .ok fields => ask (createOrganization now s fields)
    else
      match ListQuery.ofQuery? false req.url.query with
      | none => (s, plain 400 "Failed to deserialize query string")
      | some q => ask (s, listing s.organizations.values q)
  | organization raw =>
    let name := unescapeName raw
    if req.method = .delete then
      ask (if (s.organizations.find? name).isSome then (s.removeOrganization name, bare 204)
        else (s, notFound))
    else ask (found s (s.organizations.find? name))
  | workspaces raw =>
    let organization := unescapeName raw
    let known (answer : Store × Http.Response) : Store × Http.Response :=
      if (s.organizations.find? organization).isSome then answer else (s, notFound)
    if req.method = .post then
      match incoming newWorkspaceFields req with
      | .error r => (s, r)
      | .ok fields => ask (known (createWorkspace now s organization fields))
    else
      match ListQuery.ofQuery? true req.url.query with
      | none => (s, plain 400 "Failed to deserialize query string")
      | some q => ask (known (s, listing (matching s organization q.search) q))
  | workspaceByName rawOrganization rawName =>
    let organization := unescapeName rawOrganization
    let name := unescapeName rawName
    if req.method = .delete then
      ask (match s.removeWorkspace organization name with
        | (some _, s) => (s, bare 204)
        | (none, s) => (s, notFound))
    else ask (found s (s.findWorkspace? organization name))
  | workspaceById id => ask (found s (s.workspaces.find? id))
  | lock id => ask (setLock s id true)
  | unlock id => ask (setLock s id false)

/-- A method that is not understood is told which ones are. -/
def notAllowed (e : Endpoint) : Http.Response :=
  ⟨405, [("allow", ",".intercalate (e.methods.map (·.name)))], some []⟩

/-- Answers a request about an endpoint by `serve`, if its method is understood.  An
    answer to a question for the headers alone has no body. -/
def answerAt (e : Endpoint) (req : Http.Request) (s : Store) (serve : Store × Http.Response) :
    Store × Http.Response :=
  if !e.methods.contains req.method then (s, notAllowed e)
  else if req.method = .head then (serve.1, { serve.2 with body := some [] })
  else serve

/-- Answers a request at a time. -/
def handle (now : Instant) (req : Http.Request) (s : Store) : Store × Http.Response :=
  match Endpoint.ofUrl req.url with
  | .unknown => (s, bare 404)
  | .undecodable e => answerAt e req s (s, plain 400 "Invalid URL: Invalid UTF-8 in path")
  | .endpoint e => answerAt e req s (e.serve now req s)

end TerraformCloud.Simulator
