/-
  TerraformCloud/Error.lean
  =========================
  **Everything that can go wrong, by cause.**

  Three families of causes: the caller's own arguments, found wrong before anything
  is sent; answers of the service, turned into the error that their status and body
  say; and the way between the two (URL, headers, connection, cancellation, bodies
  that are no document).  Lengths of time that cannot be counted end the program.
-/
import TerraformCloud.Http.Message
import TerraformCloud.Json.Parser
import TerraformCloud.Query
import TerraformCloud.Schema.Document

namespace TerraformCloud

/-- An argument that is found wrong before anything is sent. -/
inductive Rejection where
  | invalidOrg | invalidWorkspaceId | invalidWorkspaceValue | invalidProjectId | invalidRunId
  | invalidPlanId | invalidApplyId | invalidVariableId | invalidVariableSetId
  | invalidNotificationConfigId | invalidPolicyId | invalidProviderName | invalidModuleName
  | invalidNamespace | invalidName
  | requiredName | requiredEmail | requiredKey | requiredCategory | requiredUrl
  | requiredDestinationType | requiredEnabled | requiredWorkspace | requiredWorkspacesList
  | requiredEnforce | requiredRegistryName
deriving DecidableEq, Repr

namespace Rejection

def message : Rejection → String
  | invalidOrg => "invalid value for organization"
  | invalidWorkspaceId => "invalid value for workspace ID"
  | invalidWorkspaceValue => "invalid value for workspace"
  | invalidProjectId => "invalid value for project ID"
  | invalidRunId => "invalid value for run ID"
  | invalidPlanId => "invalid value for plan ID"
  | invalidApplyId => "invalid value for apply ID"
  | invalidVariableId => "invalid value for variable ID"
  | invalidVariableSetId => "invalid variable set ID"
  | invalidNotificationConfigId => "invalid value for notification configuration ID"
  | invalidPolicyId => "invalid value for policy ID"
  | invalidProviderName => "invalid value for registry provider name"
  | invalidModuleName => "invalid value for registry module name"
  | invalidNamespace => "invalid value for namespace"
  | invalidName => "invalid value for name"
  | requiredName => "name is required"
  | requiredEmail => "email is required"
  | requiredKey => "key is required"
  | requiredCategory => "category is required"
  | requiredUrl => "url is required"
  | requiredDestinationType => "destination type is required"
  | requiredEnabled => "enabled is required"
  | requiredWorkspace => "workspace is required"
  | requiredWorkspacesList => "workspaces is required"
  | requiredEnforce => "policy enforcement is required"
  | requiredRegistryName => "registry name is required"

end Rejection

/-- A setting that is missing. -/
inductive MissingSetting where
  /-- An environment variable. -/
  | environment (name : String)
  /-- A command-line option. -/
  | option (name : String)
deriving DecidableEq, Repr

namespace MissingSetting

def message : MissingSetting → String
  | environment name => name ++ " environment variable not set"
  | option name => "--" ++ name ++ " is required for this entity"

end MissingSetting

inductive ApiError where
  | configMissing (setting : MissingSetting)
  | rejected (cause : Rejection)
  | unauthorized
  | resourceNotFound
  | invalidIncludeValue
  /-- The service reports an error in its own words. -/
  | api (message : String) (status : Http.Status)
  | logUrlUnavailable
  | invalidRequestBody
  | invalidListDocument
  | invalidQuery (cause : QueryError)
  | cancelled
  /-- No answer arrived, or only a part of it. -/
  | connection
  /-- The answer is no document of the expected kind. -/
  | malformed
  | invalidUrl (cause : UrlError)
  | invalidHeader (cause : Http.HeaderError)
  /-- The wait before the next attempt would be longer than every duration. -/
  | waitTooLong
  /-- An announced limit allows so few requests that their period cannot be counted. -/
  | limitTooSlow
deriving Repr

namespace ApiError

def message : ApiError → String
  | configMissing setting => "TFE configuration required: " ++ setting.message
  | rejected cause => cause.message
  | unauthorized => "unauthorized"
  | resourceNotFound => "resource not found"
  | invalidIncludeValue => "invalid value for include field"
  | api message _ => message
  | logUrlUnavailable => "log URL is not available"
  | invalidRequestBody => "invalid request body"
  | invalidListDocument => "expected a list document: data must be an array"
  | invalidQuery cause => "invalid query options: " ++ cause.message
  | cancelled => "request cancelled"
  | connection => "HTTP error: "
  | malformed => "Failed to parse response: "
  | invalidUrl cause => "Invalid URL: " ++ cause.message
  | invalidHeader cause => "Invalid header: " ++ cause.message
  | waitTooLong => "overflow when adding durations"
  | limitTooSlow => "Duration is longer than 584 years: TryFromIntError(())"

/-- Whether the error is not handed to anybody, but ends the program where it occurs. -/
def isCrash : ApiError → Bool
  | waitTooLong | limitTooSlow => true
  | _ => false

/-- The status that the service answered with. -/
def status? : ApiError → Option Http.Status
  | unauthorized => some 401
  | resourceNotFound => some 404
  | invalidIncludeValue => some 400
  | api _ status => some status
  | _ => none

end ApiError

/-! ### Error documents -/

structure ErrorEntry where
  title : String
  detail : Option String
deriving DecidableEq, Repr

namespace ErrorEntry

def fields : Schema.Fields :=
  .ofList [("title", .defaulted, .text), ("detail", .defaulted, .optional .text)]

def documentFields : Schema.Fields := .ofList [("errors", .defaulted, .list (.record fields))]

/-- The entries of an error document; none when the bytes are no such document. -/
def ofBytes? (body : Bytes) : Option (List ErrorEntry) :=
  match Json.parse? body with
  | none => none
  | some w =>
    match (Schema.FieldType.record documentFields).read? Json.Written.depthLimit w with
    | none => none
    | some (entries, ()) => some (entries.map fun (title, detail, ()) => ⟨title, detail⟩)

/-- The title, and behind a blank line the detail, if it says something. -/
def text (e : ErrorEntry) : String :=
  match e.detail with
  | some detail => if detail.isEmpty then e.title else e.title ++ "\n\n" ++ detail
  | none => e.title

/-- Whether the entry is about an `include` parameter. -/
def blamesInclude (e : ErrorEntry) : Bool := Query.occursIn "include parameter".toList e.text.toList

end ErrorEntry

namespace ApiError

/-- The error that a failed response means.  A body without entries counts as none,
    and the error is then in the words of the status line. -/
def ofResponse (status : Http.Status) (body : Bytes) : ApiError :=
  if status = 401 then unauthorized
  else if status = 404 then resourceNotFound
  else
    match ErrorEntry.ofBytes? body with
    | none | some [] => api (Http.statusLine status) status
    | some entries =>
      if status = 400 ∧ entries.any ErrorEntry.blamesInclude then invalidIncludeValue
      else api ("\n".intercalate (entries.map ErrorEntry.text)) status

end ApiError
end TerraformCloud
