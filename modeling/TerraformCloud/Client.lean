/-
  TerraformCloud/Client.lean
  ==========================
  **Clients and the requests they build.**

  A client knows where the service lives and who is calling.  A request is built in
  steps (address, parameters, body, media type) and is only then turned into what
  travels: later headers replace earlier ones of the same name, so what a request
  decides for itself wins over what the configuration says about all requests.
-/
import TerraformCloud.Config
import TerraformCloud.JsonApi.Body

namespace TerraformCloud

/-- The two interfaces of the service. -/
inductive Base where
  /-- Resources as documents. -/
  | api
  /-- The module registry. -/
  | registry
deriving DecidableEq, Repr

structure Client where
  apiUrl : Url
  registryUrl : Url
  token : String
  headers : Http.Headers
  retry : RetryPolicy
deriving Repr

namespace Client

/-- How a client names itself. -/
def userAgent : String := "tfeapi/0.1.0"

/-- The client of a configuration, if its address is a URL. -/
def ofConfig (c : Config) : Except ApiError Client :=
  match Url.parse c.address with
  | .error e => .error (.invalidUrl e)
  | .ok address =>
    .ok { apiUrl := Url.base address c.basePath
          registryUrl := Url.base address c.registryBasePath
          token := c.token
          headers := c.headers
          retry := c.retry }

def baseUrl (c : Client) : Base → Url
  | .api => c.apiUrl
  | .registry => c.registryUrl

/-- The client in one line, without its secret. -/
def summary (c : Client) : String :=
  shownPart "TfeClient"
    [("base_url", shownText c.apiUrl.text), ("registry_base_url", shownText c.registryUrl.text)]

end Client

/-! ### Requests -/

/-- A request under construction. -/
structure ApiRequest where
  method : Http.Method
  address : Url
  query : Query
  body : Option Body
  accept : Option String
  authenticated : Bool
deriving Repr

namespace ApiRequest

/-- A request for a URL, without parameters and body. -/
def ofAddress (method : Http.Method) (address : Url) : ApiRequest :=
  { method, address, query := .empty, body := none, accept := none, authenticated := true }

def withParams (r : ApiRequest) (params : Query) : ApiRequest := { r with query := r.query.extend params }

/-- Adds the parameters that options stand for. -/
def withOptions (r : ApiRequest) (options : Json.Value) : Except ApiError ApiRequest :=
  match Query.ofOptions options with
  | .ok params => .ok (r.withParams params)
  | .error e => .error (.invalidQuery e)

/-- Attaches a body; a method that changes nothing does not send it. -/
def withBody (r : ApiRequest) (body : Body) : ApiRequest := { r with body := some body }

def withAccept (r : ApiRequest) (mediaType : String) : ApiRequest := { r with accept := some mediaType }

/-- Sends the request without the caller's secret. -/
def anonymous (r : ApiRequest) : ApiRequest := { r with authenticated := false }

/-- The URL with the parameters; without any, the URL keeps the query it has. -/
def url (r : ApiRequest) : Url :=
  let query := r.query.encode
  if query.isEmpty then r.address else r.address.setQuery query

def sentBody (r : ApiRequest) : Option Body := if r.method.carriesBody then r.body else none

/-- The headers of the client, overlaid with those of this request. -/
def headers (c : Client) (r : ApiRequest) : Except ApiError Http.Headers :=
  let bearer := "Bearer " ++ c.token
  if r.authenticated && !Http.isFieldValue bearer then .error (.invalidHeader .badToken)
  else
    let known := if r.authenticated then c.headers.insert "authorization" bearer else c.headers
    let media := r.sentBody.map (·.format.mediaType)
    let accept := (r.accept <|> media).getD BodyFormat.jsonApi.mediaType
    let negotiated := (known.insert "user-agent" Client.userAgent).insert "accept" accept
    .ok <|
      match media with
      | none => negotiated
      | some m => negotiated.insert "content-type" m

def wire (c : Client) (r : ApiRequest) : Except ApiError Http.Request :=
  (r.headers c).map fun headers =>
    .of r.method r.url.withoutFragment headers (r.sentBody.map Body.bytes)

end ApiRequest

namespace Client

/-- Starts a request for a reference relative to an interface of the service. -/
def request (c : Client) (base : Base) (method : Http.Method) (path : String) :
    Except ApiError ApiRequest :=
  match (c.baseUrl base).join path with
  | .ok url => .ok (.ofAddress method url)
  | .error e => .error (.invalidUrl e)

/-- A request for a URL outside of the service, such as an archive of a log. -/
def outside (url : Url) : ApiRequest := ((ApiRequest.ofAddress .get url).anonymous).withAccept "text/plain"

end Client
end TerraformCloud
