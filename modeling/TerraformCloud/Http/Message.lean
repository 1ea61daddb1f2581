/-
  TerraformCloud/Http/Message.lean
  ================================
  **Requests and responses of HTTP.**
-/
import TerraformCloud.Http.Header
import TerraformCloud.Text.Base64
import TerraformCloud.Url.Parser

namespace TerraformCloud.Http

/-! ### Methods -/

structure Method where
  name : String
deriving DecidableEq, Repr

namespace Method

def get : Method := ⟨"GET"⟩
def post : Method := ⟨"POST"⟩
def put : Method := ⟨"PUT"⟩
def patch : Method := ⟨"PATCH"⟩
def delete : Method := ⟨"DELETE"⟩
def head : Method := ⟨"HEAD"⟩

/-- Methods that change something, and so carry a body. -/
def carriesBody (m : Method) : Bool := m = post || m = put || m = patch || m = delete

end Method

/-! ### Statuses -/

abbrev Status := Nat

/-- The words that go with a status. -/
def reasons : List (Status × String) :=
  [(100, "Continue"), (101, "Switching Protocols"), (102, "Processing"), (200, "OK"),
   (201, "Created"), (202, "Accepted"), (203, "Non Authoritative Information"),
   (204, "No Content"), (205, "Reset Content"), (206, "Partial Content"), (207, "Multi-Status"),
   (208, "Already Reported"), (226, "IM Used"), (300, "Multiple Choices"),
   (301, "Moved Permanently"), (302, "Found"), (303, "See Other"), (304, "Not Modified"),
   (305, "Use Proxy"), (307, "Temporary Redirect"), (308, "Permanent Redirect"),
   (400, "Bad Request"), (401, "Unauthorized"), (402, "Payment Required"), (403, "Forbidden"),
   (404, "Not Found"), (405, "Method Not Allowed"), (406, "Not Acceptable"),
   (407, "Proxy Authentication Required"), (408, "Request Timeout"), (409, "Conflict"),
   (410, "Gone"), (411, "Length Required"), (412, "Precondition Failed"),
   (413, "Payload Too Large"), (414, "URI Too Long"), (415, "Unsupported Media Type"),
   (416, "Range Not Satisfiable"), (417, "Expectation Failed"), (418, "I'm a teapot"),
   (421, "Misdirected Request"), (422, "Unprocessable Entity"), (423, "Locked"),
   (424, "Failed Dependency"), (425, "Too Early"), (426, "Upgrade Required"),
   (428, "Precondition Required"), (429, "Too Many Requests"), (431, "Request Header Fields Too Large"),
   (451, "Unavailable For Legal Reasons"), (500, "Internal Server Error"),
   (501, "Not Implemented"), (502, "Bad Gateway"), (503, "Service Unavailable"),
   (504, "Gateway Timeout"), (505, "HTTP Version Not Supported"),
   (506, "Variant Also Negotiates"), (507, "Insufficient Storage"), (508, "Loop Detected"),
   (510, "Not Extended"), (511, "Network Authentication Required")]

def statusLine (s : Status) : String :=
  toString s ++ " " ++ (reasons.lookup s).getD "<unknown status code>"

/-- Statuses by which a server reports a fault of its own. -/
def isServerError (s : Status) : Bool := 500 ≤ s && s < 600

/-- Responses that tell of success or of something elsewhere. -/
def isSuccess (s : Status) : Bool := 200 ≤ s && s < 400

/-! ### Messages -/

structure Request where
  method : Method
  url : Url
  headers : Headers
  body : Option Bytes
deriving DecidableEq, Repr

/-- The value of the header that names a user. -/
def basicValue (user : String) (password : Option String) : String :=
  "Basic " ++ Base64.encode (user ++ ":" ++ password.getD "")

/-- The request for a URL.  Its user does not travel in the address but in a header, unless
    the headers say already who is calling. -/
def Request.of (method : Method) (url : Url) (headers : Headers) (body : Option Bytes) : Request :=
  match url.credentials? with
  | none => { method, url, headers, body }
  | some (user, password) =>
    { method, url := url.withoutUser, body
      headers := headers.alter "authorization" (fun known => known.getD (basicValue user password)) }

/-- A response; without a body when reading it failed half way. -/
structure Response where
  status : Status
  fields : Fields
  body : Option Bytes
deriving DecidableEq, Repr

end TerraformCloud.Http
