/-
  TerraformCloud/Service/Call.lean
  ================================
  **What an operation sends and what it reads.**

  An operation of the service is described, not performed: a `Call` says which
  request it stands for, an `Answer` what is read from the response.  The path of a
  call is a list of segments, and each identifier is one of them.
-/
import TerraformCloud.Client.Send
import TerraformCloud.JsonApi.Document
import TerraformCloud.Kind
import TerraformCloud.Service.Name

namespace TerraformCloud

/-! ### Requests -/

/-- A request to the service. -/
structure Call where
  method : Http.Method
  base : Base := .api
  /-- The path below the interface. -/
  segments : List String
  /-- Options that become parameters; `null` for none. -/
  options : Json.Value := .null
  body : Option Body := none
  accept : Option String := none
deriving Repr

namespace Call

/-- The path as a reference: each segment escaped, with slashes between them. -/
def path (c : Call) : String := "/".intercalate (c.segments.map Percent.encode)

/-- A call without options and body. -/
def bare (method : Http.Method) (segments : List String) : Call := { method, segments }

/-- A call that only reads. -/
def get (segments : List String) : Call := .bare .get segments

/-- A call that only reads, with options. -/
def select (segments : List String) (options : Json.Value) : Call :=
  { method := .get, segments, options }

def json (segments : List String) (body : Json.Value) : Call :=
  { method := .post, segments, body := some (.json body) }

def resource (method : Http.Method) (segments : List String) (draft : Draft) : Except ApiError Call :=
  (Body.resource draft).map fun body => { method, segments, body := some body }

def request (call : Call) (c : Client) : Except ApiError ApiRequest := do
  let r ← c.request call.base call.method call.path
  let r ← r.withOptions call.options
  return { r with body := call.body, accept := call.accept }

end Call

/-! ### Pages -/

/-- Which page of a list is asked for. -/
structure PageRequest where
  number : Option UInt32 := none
  size : Option UInt32 := none
deriving DecidableEq, Repr

namespace PageRequest

/-- The members that ask for the page. -/
def members (p : PageRequest) : List (String × Json.Value) :=
  [("page[number]", .opt (fun n => .nat n.toNat) p.number),
   ("page[size]", .opt (fun n => .nat n.toNat) p.size)]

end PageRequest

/-- Options of a list that contain the page asked for. -/
class Paginated (ο : Type) where
  page : ο → PageRequest
  withPage : ο → PageRequest → ο

instance : Paginated PageRequest where
  page p := p
  withPage _ p := p

/-! ### Members of options -/

/-- A member that holds a text, if there is one. -/
def textMember (name : String) (s : Option String) : String × Json.Value := (name, .opt .string s)

def flagMember (name : String) (b : Option Bool) : String × Json.Value := (name, .opt .bool b)

def naturalMember (name : String) (n : Option UInt32) : String × Json.Value :=
  (name, .opt (fun n => .nat n.toNat) n)

def textsMember (name : String) (ss : List String) : String × Json.Value :=
  (name, .array (ss.map .string))

/-! ### Answers -/

/-- What a response to a call holds. -/
inductive Answer where
  | resource (kind : Kind)
  | page (kind : Kind)
  /-- Nothing that is read. -/
  | nothing
  /-- The versions of a module, as plain JSON. -/
  | versions
deriving DecidableEq, Repr

namespace Answer

/-- The values of an answer. -/
@[reducible] def Value : Answer → Type
  | resource kind => Resource kind.Attributes
  | page kind => Page (Resource kind.Attributes) Pagination
  | nothing => Unit
  | versions => ModuleVersionList

/-- Reads the answer from a successful response. -/
def read (answer : Answer) (r : Http.Response) : Except ApiError answer.Value :=
  match answer with
  | resource kind => (bodyOf r).bind (decodeOne kind.Attributes)
  | page kind => (bodyOf r).bind (decodeList kind.Attributes Pagination)
  | nothing => .ok ()
  | versions => (bodyOf r).bind (ofBytes (Recorded.read? ModuleVersionList))

end Answer
end TerraformCloud
