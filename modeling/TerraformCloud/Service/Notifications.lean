/-
  TerraformCloud/Service/Notifications.lean
  =========================================
  **Operations on notification configurations and on policies.**
-/
import TerraformCloud.Service.Workspaces

namespace TerraformCloud

/-! ### Notification configurations -/

namespace Notifications

/-- A notification configuration to be created. -/
structure NewConfiguration where
  name : Option String := none
  destinationType : Option Destination := none
  enabled : Option Bool := none
  url : Option String := none
  token : Option String := none
  triggers : List String := []
deriving Repr

def NewConfiguration.draft (c : NewConfiguration) : Draft :=
  .ofAttributes (Attributes.type NotificationConfiguration)
    [textMember "name" c.name,
     textMember "destination-type" (c.destinationType.map Destination.spelling),
     flagMember "enabled" c.enabled, textMember "url" c.url, textMember "token" c.token,
     textsMember "triggers" c.triggers]

/-- It has to say who is told and whether, and where to post if that is the way. -/
def NewConfiguration.check (c : NewConfiguration) : Except ApiError Unit := do
  require .requiredName (isPresent c.name)
  require .requiredDestinationType c.destinationType.isSome
  require .requiredEnabled c.enabled.isSome
  require .requiredUrl (c.destinationType.all (fun d => !d.requiresUrl) || isPresent c.url)

structure Changes where
  name : Option String := none
  enabled : Option Bool := none
  url : Option String := none
  token : Option String := none
  triggers : Option (List String) := none
deriving Repr

def Changes.draft (c : Changes) : Draft :=
  { type := Attributes.type NotificationConfiguration
    id := none
    attributes := .object (Schema.sparse
      [textMember "name" c.name, flagMember "enabled" c.enabled, textMember "url" c.url,
       textMember "token" c.token] ++ Workspaces.listMember "triggers" c.triggers)
    relationships := .empty }

inductive Operation where
  | list (workspaceId : String) (page : PageRequest)
  | create (workspaceId : String) (configuration : NewConfiguration)
  | read (id : String)
  | update (id : String) (changes : Changes)
  | delete (id : String)
  | verify (id : String)
deriving Repr

def path (id : String) : Except ApiError (List String) := do
  require .invalidNotificationConfigId (isIdentifier id)
  return ["notification-configurations", id]

def listPath (workspaceId : String) : Except ApiError (List String) := do
  return (← Workspaces.idPath workspaceId) ++ ["notification-configurations"]

def Operation.call : Operation → Except ApiError Call
  | list workspaceId page => return .select (← listPath workspaceId) (.object page.members)
  | create workspaceId configuration => do
    let path ← listPath workspaceId
    configuration.check
    Call.resource .post path configuration.draft
  | read id => return .get (← path id)
  | update id changes => do Call.resource .patch (← path id) changes.draft
  | delete id => return .bare .delete (← path id)
  | verify id => return .bare .post ((← path id) ++ ["actions", "verify"])

def Operation.answer : Operation → Answer
  | list _ _ => .page .notification
  | create _ _ | read _ | update _ _ | verify _ => .resource .notification
  | delete _ => .nothing

end Notifications

/-! ### Policies -/

namespace Policies

structure ListOptions where
  page : PageRequest := {}
  search : Option String := none
  kind : Option PolicyKind := none
deriving Repr

instance : Paginated ListOptions where
  page o := o.page
  withPage o p := { o with page := p }

def ListOptions.params (o : ListOptions) : Json.Value :=
  .object (o.page.members ++
    [textMember "search[name]" o.search, textMember "filter[kind]" (o.kind.map PolicyKind.spelling)])

structure NewPolicy where
  name : Option String := none
  description : Option String := none
  kind : Option PolicyKind := none
  query : Option String := none
  enforcementLevel : Option Enforcement := none
deriving Repr

def NewPolicy.draft (p : NewPolicy) : Draft :=
  .ofAttributes (Attributes.type Policy)
    [textMember "name" p.name, textMember "description" p.description,
     textMember "kind" (p.kind.map PolicyKind.spelling), textMember "query" p.query,
     textMember "enforcement-level" (p.enforcementLevel.map Enforcement.spelling)]

/-- It needs a name that is an identifier, and has to say how strictly it binds. -/
def NewPolicy.check (p : NewPolicy) : Except ApiError Unit := do
  require .requiredName (isPresent p.name)
  require .invalidName (p.name.any isIdentifier)
  require .requiredEnforce p.enforcementLevel.isSome

structure Changes where
  description : Option String := none
  query : Option String := none
  enforcementLevel : Option Enforcement := none
deriving Repr

def Changes.draft (c : Changes) : Draft :=
  .ofAttributes (Attributes.type Policy)
    [textMember "description" c.description, textMember "query" c.query,
     textMember "enforcement-level" (c.enforcementLevel.map Enforcement.spelling)]

inductive Operation where
  | list (organization : String) (options : ListOptions)
  | create (organization : String) (policy : NewPolicy)
  | read (id : String)
  | update (id : String) (changes : Changes)
  | delete (id : String)
deriving Repr

def path (id : String) : Except ApiError (List String) := do
  require .invalidPolicyId (isIdentifier id)
  return ["policies", id]

def listPath (organization : String) : Except ApiError (List String) := do
  return (← Organizations.path organization) ++ ["policies"]

def Operation.call : Operation → Except ApiError Call
  | list organization options => return .select (← listPath organization) options.params
  | create organization policy => do
    let path ← listPath organization
    policy.check
    Call.resource .post path policy.draft
  | read id => return .get (← path id)
  | update id changes => do Call.resource .patch (← path id) changes.draft
  | delete id => return .bare .delete (← path id)

def Operation.answer : Operation → Answer
  | list _ _ => .page .policy
  | create _ _ | read _ | update _ _ => .resource .policy
  | delete _ => .nothing

end Policies
end TerraformCloud
