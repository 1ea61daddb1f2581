/-
  TerraformCloud/Url/Parser.lean
  ==============================
  **Reading URLs and resolving references against a base.**

  A text is cut into its parts first (scheme, authority, path, query, fragment) and
  each part is then read on its own.  A path is a walk over a stack of segments: `.`
  stays, `..` goes up one segment and never above the root, anything else goes down.
  A reference without a scheme starts its walk where its base stands, without the
  last segment.
-/
import TerraformCloud.Url.Host

namespace TerraformCloud.Url

/-! ### Cutting a text -/

/-- Tabs and line breaks do not count anywhere in a URL. -/
def isBreak (c : Char) : Bool := c = '\t' || c = '\n' || c = '\r'

/-- Controls and blanks do not count at the ends of a URL. -/
def isEdge (c : Char) : Bool := c.toNat ≤ 0x20

/-- The characters of a text that count. -/
def trimmed (text : String) : List Char :=
  let front := text.toList.dropWhile isEdge
  (front.reverse.dropWhile isEdge).reverse.filter (fun c => !isBreak c)

def isSchemeChar (c : Char) : Bool := c.isAlphanum || c = '+' || c = '-' || c = '.'

/-- The scheme in lower case, and what follows its colon. -/
def scheme? (input : List Char) : Option (String × List Char) :=
  if !(input.head?.any Char.isAlpha) then none
  else
    match input.dropWhile isSchemeChar with
    | ':' :: rest => some (String.ofList ((input.takeWhile isSchemeChar).map Char.toLower), rest)
    | _ => none

/-- What follows the authority, cut into its three parts. -/
structure Tail where
  path : List Char
  query : Option (List Char)
  fragment : Option (List Char)

/-- The path ends at the first `?` or `#`, the query at the first `#`. -/
def Tail.of (input : List Char) : Tail :=
  let inPath (c : Char) : Bool := c ≠ '?' && c ≠ '#'
  let inQuery (c : Char) : Bool := c ≠ '#'
  let (query, rest) :=
    match input.dropWhile inPath with
    | '?' :: r => (some (r.takeWhile inQuery), r.dropWhile inQuery)
    | r => (none, r)
  ⟨input.takeWhile inPath, query, if rest.isEmpty then none else some (rest.drop 1)⟩

/-- A URL from its front and the path it walks to. -/
def ofParts (scheme : String) (authority : Option Authority) (path : UrlPath) (tail : Tail) : Url :=
  let set := if isSpecialScheme scheme then specialQuerySet else querySet
  { scheme, authority, path,
    query := tail.query.map (escape set),
    fragment := tail.fragment.map (escape fragmentSet) }

/-! ### Paths -/

/-- `.`, also with its point escaped. -/
def isSingleDot (segment : String) : Bool := segment = "." || segment.toLower = "%2e"

/-- `..`, also with either point escaped. -/
def isDoubleDot (segment : String) : Bool :=
  [".." , "%2e%2e", "%2e.", ".%2e"].contains segment.toLower

/-- Walks along segments; the stack holds where the walk stands, deepest first.  A
    path that ends in a point ends in a slash. -/
def walk (stack : List String) : List String → List String
  | [] => stack.reverse
  | [last] =>
    if isDoubleDot last then ("" :: stack.tail).reverse
    else if isSingleDot last then ("" :: stack).reverse
    else (last :: stack).reverse
  | s :: rest =>
    if isDoubleDot s then walk stack.tail rest
    else if isSingleDot s then walk stack rest
    else walk (s :: stack) rest

/-- Special schemes read a backslash as a slash. -/
def isSlash (special : Bool) (c : Char) : Bool := c = '/' || (special && c = '\\')

/-- The escaped segments of a path, without dots resolved. -/
def segmentsOf (special : Bool) (path : List Char) : List String :=
  (splitChars '/' (path.map (fun c => if isSlash special c then '/' else c))).map (escape pathSet)

/-- The segments of a path that starts at the root.  A special scheme has at least one. -/
def rootedPath (special : Bool) (path : List Char) : List String :=
  match path with
  | [] => if special then [""] else []
  | c :: rest => walk [] (segmentsOf special (if isSlash special c then rest else c :: rest))

/-- A path of a file has no empty segment at its front. -/
def dropEmptyFront : List String → List String
  | "" :: s :: rest => dropEmptyFront (s :: rest)
  | segments => segments

/-! ### Authorities -/

/-- A text before and behind the last `@`. -/
def splitAtSign (text : List Char) : Option (List Char × List Char) :=
  let notAt (c : Char) : Bool := c ≠ '@'
  match text.reverse.dropWhile notAt with
  | [] => none
  | _ :: before => some (before.reverse, (text.reverse.takeWhile notAt).reverse)

/-- The host ends at the first colon outside brackets. -/
def splitHost (inBrackets : Bool) : List Char → List Char × List Char
  | [] => ([], [])
  | c :: rest =>
    if c = ':' ∧ !inBrackets then ([], c :: rest)
    else
      let next := if c = '[' then true else if c = ']' then false else inBrackets
      let (host, behind) := splitHost next rest
      (c :: host, behind)

/-- The port behind a colon, and what is left.  The port that the scheme implies, and
    an absent number, are no port. -/
def port? (scheme : String) (text : List Char) : Except UrlError (Option Nat × List Char) :=
  let digits := text.takeWhile Char.isDigit
  let rest := text.dropWhile Char.isDigit
  let n := natOfDigits digits
  if 65535 < n then .error .badPort
  else if !(rest.head?.all (fun c => isSlash true c)) then .error .badPort
  else .ok (if digits.isEmpty ∨ defaultPort scheme = some n then none else some n, rest)

/-- User and password, divided at the first colon. -/
def userInfo (text : List Char) : String × String :=
  let notColon (c : Char) : Bool := c ≠ ':'
  (escape userSet (text.takeWhile notColon), escape userSet ((text.dropWhile notColon).drop 1))

/-- The URL whose authority starts at the front of the input. -/
def withAuthority (scheme : String) (input : List Char) : Except UrlError Url := do
  let special := isSpecialScheme scheme
  let inFront (c : Char) : Bool := !isSlash special c && c ≠ '?' && c ≠ '#'
  let front := input.takeWhile inFront
  let behind := input.dropWhile inFront
  let (info, address) := (splitAtSign front).getD ([], front)
  if (splitAtSign front).isSome ∧ info.isEmpty ∧ address.isEmpty ∧ !behind.isEmpty then
    throw .emptyHost
  let (user, password) := userInfo info
  let (hostText, portText) := splitHost false address
  if special ∧ hostText.isEmpty then throw .emptyHost
  let host ← if special then Host.parse hostText else Host.parseAny hostText
  if hostText.isEmpty ∧ !portText.isEmpty then throw .emptyHost
  let (port, rest) ← if portText.isEmpty then .ok (none, []) else port? scheme (portText.drop 1)
  if hostText.isEmpty ∧ !(user.isEmpty && password.isEmpty) then throw .emptyHost
  let tail := Tail.of (rest ++ behind)
  return ofParts scheme (some ⟨user, password, host, port⟩)
    (.segments (rootedPath special tail.path)) tail

/-! ### Files -/

def fileScheme : String := "file"

/-- The host of a file: this machine, also by its name, is no host. -/
def fileHost (text : List Char) : Except UrlError Host :=
  if text.isEmpty then .ok (.name "")
  else
    match Host.parse text with
    | .ok host => .ok (if host = .name "localhost" then .name "" else host)
    | .error e => .error e

/-- A file on a host, at the end of a walk that starts with the stack. -/
def fileAt (host : Host) (stack : List String) (path : List Char) (tail : Tail) : Url :=
  let segments := dropEmptyFront (walk stack (segmentsOf true path))
  ofParts fileScheme (some ⟨"", "", host, none⟩) (.segments segments) tail

def file (base : Option Url) (input : List Char) : Except UrlError Url :=
  let slash := isSlash true
  let inHost (c : Char) : Bool := !slash c && c ≠ '?' && c ≠ '#'
  let host := (base.bind Url.authority).elim (.name "") Authority.host
  let tail := Tail.of input
  let slashes := (input.take 2).takeWhile slash
  if slashes.length = 2 then do
    let host ← fileHost ((input.drop 2).takeWhile inHost)
    let tail := Tail.of ((input.drop 2).dropWhile inHost)
    return fileAt host [] (tail.path.drop 1) tail
  else if slashes.length = 1 then .ok (fileAt host [] (tail.path.drop 1) tail)
  else
    match base.map Url.path with
    | some (.segments parts) =>
      if tail.path.isEmpty then
        let query := if tail.query.isSome then none else base.bind Url.query
        let u := ofParts fileScheme (some ⟨"", "", host, none⟩) (.segments parts) tail
        .ok { u with query := u.query <|> query }
      else .ok (fileAt host parts.dropLast.reverse tail.path tail)
    | _ => .ok (fileAt host [] tail.path tail)

/-! ### References -/

/-- Resolves what has no scheme of its own against a base with segments. -/
def relative (base : Url) (parts : List String) (input : List Char) : Except UrlError Url :=
  let special := isSpecialScheme base.scheme
  let tail := Tail.of input
  let placed (segments : List String) : Except UrlError Url :=
    .ok (ofParts base.scheme base.authority (.segments segments) tail)
  match input with
  | [] => .ok base.withoutFragment
  | '/' :: '/' :: rest => withAuthority base.scheme rest
  | c :: rest =>
    if c = '?' then placed parts
    else if isSlash true c then
      if rest.head?.any (isSlash true) then withAuthority base.scheme (rest.dropWhile (isSlash true))
      else placed (walk [] (segmentsOf special (tail.path.drop 1)))
    else placed (walk parts.dropLast.reverse (segmentsOf special tail.path))

/-- A URL of a scheme without rules of its own. -/
def general (scheme : String) (input : List Char) : Except UrlError Url :=
  let tail := Tail.of input
  match input with
  | '/' :: '/' :: rest => withAuthority scheme rest
  | '/' :: _ => .ok (ofParts scheme none (.segments (rootedPath false tail.path)) tail)
  | _ => .ok (ofParts scheme none (.rootless (escape controlSet tail.path)) tail)

/-- Reads a URL behind its scheme. -/
def withScheme (base : Option Url) (scheme : String) (input : List Char) : Except UrlError Url :=
  if scheme = fileScheme then file (base.filter (·.scheme = fileScheme)) input
  else if isSpecialScheme scheme then
    let slashes := (input.takeWhile (isSlash true)).length
    match base, base.map Url.path with
    | some b, some (.segments parts) =>
      if slashes < 2 ∧ b.scheme = scheme then relative b parts input
      else withAuthority scheme (input.drop slashes)
    | _, _ => withAuthority scheme (input.drop slashes)
  else general scheme input

/-- The URL that a text spells on its own. -/
def parse (text : String) : Except UrlError Url :=
  let input := trimmed text
  match scheme? input with
  | some (scheme, rest) => withScheme none scheme rest
  | none => .error .noBase

/-- The URL that a text means where `base` is the URL at hand. -/
def join (base : Url) (text : String) : Except UrlError Url :=
  let input := trimmed text
  match scheme? input with
  | some (scheme, rest) => withScheme (some base) scheme rest
  | none =>
    match input, base.path with
    | '#' :: fragment, _ => .ok { base with fragment := some (escape fragmentSet fragment) }
    | _, .rootless _ => .error .rootlessBase
    | _, .segments parts =>
      if base.scheme = fileScheme then file (some base) input else relative base parts input

/-! ### Changing the path -/

/-- A path of its own for an address: it starts and ends with a slash, and nothing in
    it starts a query or a fragment.  Query and user of the address stay. -/
def setPath (u : Url) (path : String) : Url :=
  let cs := path.toList
  let front := if cs.head? = some '/' then cs else '/' :: cs
  let closed := (if front.getLast? = some '/' then front else front ++ ['/']).filter (fun c => !isBreak c)
  match u.path with
  | .rootless _ => { u with path := .rootless ("%2F" ++ escape controlSet (closed.drop 1)) }
  | .segments _ =>
    let segments := rootedPath (isSpecialScheme u.scheme) closed
    { u with path := .segments (if u.scheme = fileScheme then dropEmptyFront segments else segments) }

/-- The base of an interface that lives at a path of an address. -/
def base (address : Url) (path : String) : Url := { address.setPath path with query := none }

end TerraformCloud.Url
