/-
  TerraformCloud/Simulator/Endpoint.lean
  ======================================
  **What a request to a simulated service is about.**

  The path of a request is matched segment by segment.  A segment that stands for a
  name or an id is unescaped when it is captured; one that is empty, or that is no
  text once it is unescaped, captures nothing.  Parameters of lists are read from the
  query as a form would send them.
-/
import TerraformCloud.Http.Message

namespace TerraformCloud.Simulator

/-! ### Paths -/

/-- What can be asked for. -/
inductive Endpoint where
  | ping
  | health
  | organizations
  | organization (name : String)
  | workspaces (organization : String)
  | workspaceByName (organization name : String)
  | workspaceById (id : String)
  | lock (id : String)
  | unlock (id : String)
deriving DecidableEq, Repr

/-- How a path was matched. -/
inductive Match where
  | endpoint (e : Endpoint)
  /-- A captured segment is no text; the endpoint holds it as it was written. -/
  | undecodable (e : Endpoint)
  | unknown
deriving DecidableEq, Repr

namespace Endpoint

/-- Captures one segment; an empty one matches nothing. -/
def capture (segment : String) (make : String → Endpoint) : Match :=
  if segment.isEmpty then .unknown
  else
    match Percent.decode? segment with
    | some text => .endpoint (make text)
    | none => .undecodable (make segment)

/-- Captures two segments. -/
def capture2 (first second : String) (make : String → String → Endpoint) : Match :=
  if first.isEmpty || second.isEmpty then .unknown
  else
    match Percent.decode? first, Percent.decode? second with
    | some a, some b => .endpoint (make a b)
    | _, _ => .undecodable (make first second)

/-- What a path asks for. -/
def ofSegments : List String → Match
  | ["health"] => .endpoint .health
  | "api" :: "v2" :: rest =>
    match rest with
    | ["ping"] => .endpoint .ping
    | ["organizations"] => .endpoint .organizations
    | ["organizations", name] => capture name .organization
    | ["organizations", name, "workspaces"] => capture name .workspaces
    | ["organizations", org, "workspaces", name] => capture2 org name .workspaceByName
    | ["workspaces", id] => capture id .workspaceById
    | ["workspaces", id, "actions", "lock"] => capture id .lock
    | ["workspaces", id, "actions", "unlock"] => capture id .unlock
    | _ => .unknown
  | _ => .unknown

/-- What a URL asks for. -/
def ofUrl (u : Url) : Match :=
  match u.path with
  | .segments parts => ofSegments parts
  | .rootless _ => .unknown

/-- The methods that an endpoint understands, as an answer to any other one lists them.
    What can be read can also be asked for its headers alone. -/
def methods : Endpoint → List Http.Method
  | ping | health | workspaceById _ => [.get, .head]
  | organizations | workspaces _ => [.get, .head, .post]
  | organization _ | workspaceByName _ _ => [.get, .head, .delete]
  | lock _ | unlock _ => [.post]

end Endpoint

/-! ### Forms -/

/-- A part of a form: a plus sign is a blank, escapes are undone. -/
def formText (part : List Char) : String :=
  let plain := part.map (fun c => if c = '+' then ' ' else c)
  String.ofList (Utf8.decodeLossy (Percent.decodeBytes (Utf8.encode (String.ofList plain))))

/-- The pairs of a query. -/
def formPairs (query : String) : List (String × String) :=
  ((splitChars '&' query.toList).filter (fun p => !p.isEmpty)).map fun p =>
    let notEq (c : Char) : Bool := c ≠ '='
    (formText (p.takeWhile notEq), formText ((p.dropWhile notEq).drop 1))

/-- The only value of a parameter; giving it twice is an error. -/
def formValue? (pairs : List (String × String)) (name : String) : Option (Option String) :=
  match (pairs.filter (fun p => p.1 = name)).map (·.2) with
  | [] => some none
  | [value] => some (some value)
  | _ => none

/-- A natural number below `2 ^ 32`, perhaps with a plus sign. -/
def formNatural? (value : String) : Option UInt32 :=
  let cs := value.toList
  match natOfDigits? (if cs.head? = some '+' then cs.drop 1 else cs) with
  | some n => if n < UInt32.size then some (UInt32.ofNat n) else none
  | none => none

structure ListQuery where
  number : Option UInt32
  size : Option UInt32
  search : Option String
deriving DecidableEq, Repr

namespace ListQuery

/-- A number that may be missing. -/
def natural? (pairs : List (String × String)) (name : String) : Option (Option UInt32) :=
  match formValue? pairs name with
  | none => none
  | some none => some none
  | some (some value) => (formNatural? value).map some

/-- Reads the parameters; a list that cannot be searched does not look at `search`. -/
def ofQuery? (searchable : Bool) (query : Option String) : Option ListQuery := do
  let pairs := formPairs (query.getD "")
  let number ← natural? pairs "page[number]"
  let size ← natural? pairs "page[size]"
  let search ← if searchable then formValue? pairs "search[name]" else some none
  return ⟨number, size, search⟩

/-- The size of a page where none is asked for. -/
def standardSize : Nat := 20

/-- The largest size of a page. -/
def largestSize : Nat := 100

/-- The page that is meant, from one on. -/
def pageNumber (q : ListQuery) : Nat := max 1 (q.number.elim 1 UInt32.toNat)

/-- The size that is meant, between one and the largest. -/
def pageSize (q : ListQuery) : Nat := max 1 (min largestSize (q.size.elim standardSize UInt32.toNat))

end ListQuery
end TerraformCloud.Simulator
