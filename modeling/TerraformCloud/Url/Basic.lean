/-
  TerraformCloud/Url/Basic.lean
  =============================
  **URLs by their parts.**

  A URL has a scheme, possibly an authority (user, host, port), a path, and possibly
  a query and a fragment.  The path of a hierarchical URL is a list of segments, so
  that joining paths is a matter of lists and a segment cannot merge with its
  neighbours; the path of any other URL (`mailto:someone`) is plain text.
-/
import TerraformCloud.Text.Percent

namespace TerraformCloud

/-- Why a text is no URL. -/
inductive UrlError where
  | emptyHost
  | badDomain
  | badPort
  | badIpv4
  | badIpv6
  | badHostCharacter
  /-- There is no scheme, and nothing to resolve the text against. -/
  | noBase
  /-- The text has to be resolved against a URL whose path has no segments. -/
  | rootlessBase
deriving DecidableEq, Repr

namespace UrlError

def message : UrlError → String
  | .emptyHost => "empty host"
  | .badDomain => "invalid international domain name"
  | .badPort => "invalid port number"
  | .badIpv4 => "invalid IPv4 address"
  | .badIpv6 => "invalid IPv6 address"
  | .badHostCharacter => "invalid domain character"
  | .noBase => "relative URL without a base"
  | .rootlessBase => "relative URL with a cannot-be-a-base base"

end UrlError

inductive Host where
  /-- A name; empty only where the scheme allows it. -/
  | name (text : String)
  /-- An address of four bytes, as one number. -/
  | ipv4 (address : Nat)
  /-- An address of eight pieces of sixteen bits. -/
  | ipv6 (pieces : List Nat)
deriving DecidableEq, Repr

/-- What stands between `//` and the path. -/
structure Authority where
  user : String
  password : String
  host : Host
  port : Option Nat
deriving DecidableEq, Repr

inductive UrlPath where
  /-- Text without structure. -/
  | rootless (text : String)
  /-- Segments, each behind a slash. -/
  | segments (parts : List String)
deriving DecidableEq, Repr

structure Url where
  scheme : String
  authority : Option Authority
  path : UrlPath
  query : Option String
  fragment : Option String
deriving DecidableEq, Repr

namespace Url

/-! ### Schemes -/

/-- The port that a scheme of the web implies, and none for the other special ones. -/
def defaultPort (scheme : String) : Option Nat :=
  if scheme = "http" ∨ scheme = "ws" then some 80
  else if scheme = "https" ∨ scheme = "wss" then some 443
  else if scheme = "ftp" then some 21
  else none

/-- Schemes whose URLs always have a host and read a backslash as a slash. -/
def isSpecialScheme (scheme : String) : Bool :=
  (defaultPort scheme).isSome || scheme = "file"

/-! ### Which bytes a part escapes -/

/-- Controls and everything outside ASCII. -/
def controlSet (b : UInt8) : Bool := b < 0x20 || 0x7E < b

def anyOf (chars : String) (b : UInt8) : Bool := chars.toList.any (fun c => asciiByte c = b)

def fragmentSet (b : UInt8) : Bool := controlSet b || anyOf " \"<>`" b

def querySet (b : UInt8) : Bool := controlSet b || anyOf " \"#<>" b

def specialQuerySet (b : UInt8) : Bool := querySet b || b = asciiByte '\''

def pathSet (b : UInt8) : Bool := fragmentSet b || anyOf "#?^\x7b\x7d" b

def userSet (b : UInt8) : Bool := pathSet b || anyOf "/:;=@[\\]|" b

/-- A text with the bytes of a set escaped. -/
def escape (mustEscape : UInt8 → Bool) (text : List Char) : String :=
  String.ofList (Percent.encodeBytes mustEscape (Utf8.encode (String.ofList text)))

/-! ### Writing -/

/-- The start and length of the first of the longest runs of zero pieces. -/
def longestZeros : Nat → List Nat → Nat × Nat
  | _, [] => (0, 0)
  | at_, p :: rest =>
    let here := ((p :: rest).takeWhile (· = 0)).length
    let later := longestZeros (at_ + 1) rest
    if later.2 ≤ here then (at_, here) else later

def hexText (n : Nat) : String := String.ofList (Nat.toDigits 16 n)

def joinHex (pieces : List Nat) : String := ":".intercalate (pieces.map hexText)

def ipv6Text (pieces : List Nat) : String :=
  let (start, length) := longestZeros 0 pieces
  if length < 2 then joinHex pieces
  else joinHex (pieces.take start) ++ "::" ++ joinHex (pieces.drop (start + length))

end Url

def Host.text : Host → String
  | .name text => text
  | .ipv4 a =>
    ".".intercalate ([a / Nat.pow 2 24 % 256, a / Nat.pow 2 16 % 256, a / Nat.pow 2 8 % 256, a % 256].map toString)
  | .ipv6 pieces => "[" ++ Url.ipv6Text pieces ++ "]"

def Authority.text (a : Authority) : String :=
  let password := if a.password.isEmpty then "" else ":" ++ a.password
  let user := if a.user.isEmpty && a.password.isEmpty then "" else a.user ++ password ++ "@"
  let port := match a.port with
    | none => ""
    | some n => ":" ++ toString n
  "//" ++ user ++ a.host.text ++ port

namespace UrlPath

def text : UrlPath → String
  | .rootless t => t
  | .segments parts => String.join (parts.map ("/" ++ ·))

end UrlPath

namespace Url

/-- Everything up to the path.  Without an authority, a path that starts with two
    slashes is kept apart from the scheme, or it would read as an authority. -/
def frontText (u : Url) : String :=
  u.scheme ++ ":" ++
    match u.authority, u.path with
    | some a, _ => a.text
    | none, .segments ("" :: _ :: _) => "/."
    | none, _ => ""

/-- The URL without its fragment, as a request names it. -/
def withoutFragment (u : Url) : Url := { u with fragment := none }

def text (u : Url) : String :=
  u.frontText ++ u.path.text ++
    (match u.query with
      | none => ""
      | some q => "?" ++ q) ++
    match u.fragment with
    | none => ""
    | some f => "#" ++ f

/-! ### Users -/

/-- Who a URL says is calling: a user, possibly with a password.  Nobody, if the escaped
    bytes of neither spell a text. -/
def credentials? (u : Url) : Option (String × Option String) :=
  match u.authority with
  | none => none
  | some a =>
    match Percent.decode? a.user with
    | none => none
    | some user =>
      let password := if a.password.isEmpty then none else Percent.decode? a.password
      if user.isEmpty && password.isNone then none else some (user, password)

def withoutUser (u : Url) : Url :=
  { u with authority := u.authority.map fun a => { a with user := "", password := "" } }

/-! ### Changing the query -/

/-- Puts a query in place of the one that is there. -/
def setQuery (u : Url) (query : String) : Url :=
  let set := if isSpecialScheme u.scheme then specialQuerySet else querySet
  { u with query := some (escape set (query.toList.filter (fun c => c ≠ '\t' ∧ c ≠ '\n' ∧ c ≠ '\r'))) }

/-- Adds a pair of unreserved texts behind the query. -/
def addPair (u : Url) (key value : String) : Url :=
  let pair := key ++ "=" ++ value
  let query := match u.query with
    | none => pair
    | some q => if q.isEmpty then pair else q ++ "&" ++ pair
  { u with query := some query }

end Url
end TerraformCloud
