/-
  TerraformCloud/Service/Organizations.lean
  =========================================
  **Operations on organizations and on projects.**
-/
import TerraformCloud.Service.Call

namespace TerraformCloud

/-! ### Organizations -/

namespace Organizations

structure ListOptions where
  page : PageRequest := {}
  /-- Part of a name or an address. -/
  query : Option String := none
  email : Option String := none
deriving Repr

instance : Paginated ListOptions where
  page o := o.page
  withPage o p := { o with page := p }

def ListOptions.params (o : ListOptions) : Json.Value :=
  .object (o.page.members ++ [textMember "q" o.query, textMember "filter[email]" o.email])

/-- Settings of an organization, for creating and changing it. -/
structure Settings where
  name : Option String := none
  email : Option String := none
  sessionTimeout : Option UInt32 := none
  sessionRemember : Option UInt32 := none
  collaboratorAuthPolicy : Option String := none
  costEstimationEnabled : Option Bool := none
deriving Repr

def Settings.draft (s : Settings) : Draft :=
  .ofAttributes (Attributes.type Organization)
    [textMember "name" s.name, textMember "email" s.email,
     naturalMember "session-timeout" s.sessionTimeout,
     naturalMember "session-remember" s.sessionRemember,
     textMember "collaborator-auth-policy" s.collaboratorAuthPolicy,
     flagMember "cost-estimation-enabled" s.costEstimationEnabled]

/-- What a new organization needs: a name that is an identifier, and an address. -/
def Settings.checkNew (s : Settings) : Except ApiError Unit := do
  require .requiredName (isPresent s.name)
  require .invalidName (s.name.any isIdentifier)
  require .requiredEmail (isPresent s.email)

inductive Operation where
  | list (options : ListOptions)
  | create (settings : Settings)
  | read (organization : String)
  | update (organization : String) (settings : Settings)
  | delete (organization : String)
deriving Repr

def path (organization : String) : Except ApiError (List String) := do
  require .invalidOrg (isIdentifier organization)
  return ["organizations", organization]

def Operation.call : Operation → Except ApiError Call
  | list options => return .select ["organizations"] options.params
  | create settings => do
    settings.checkNew
    Call.resource .post ["organizations"] settings.draft
  | read organization => return .get (← path organization)
  | update organization settings => do Call.resource .patch (← path organization) settings.draft
  | delete organization => return .bare .delete (← path organization)

def Operation.answer : Operation → Answer
  | list _ => .page .organization
  | create _ | read _ | update _ _ => .resource .organization
  | delete _ => .nothing

end Organizations

/-! ### Projects -/

namespace Projects

structure ListOptions where
  page : PageRequest := {}
  names : List String := []
  query : Option String := none
deriving Repr

instance : Paginated ListOptions where
  page o := o.page
  withPage o p := { o with page := p }

def ListOptions.params (o : ListOptions) : Json.Value :=
  .object (o.page.members ++ [textsMember "filter[names]" o.names, textMember "q" o.query])

structure NewProject where
  name : String
  description : Option String := none
deriving Repr

structure Changes where
  name : Option String := none
  description : Option String := none
deriving Repr

def draft (name description : Option String) : Draft :=
  .ofAttributes (Attributes.type Project)
    [textMember "name" name, textMember "description" description]

inductive Operation where
  | list (organization : String) (options : ListOptions)
  | create (organization : String) (project : NewProject)
  | read (id : String)
  | update (id : String) (changes : Changes)
  | delete (id : String)
deriving Repr

def path (id : String) : Except ApiError (List String) := do
  require .invalidProjectId (isIdentifier id)
  return ["projects", id]

def listPath (organization : String) : Except ApiError (List String) := do
  return (← Organizations.path organization) ++ ["projects"]

def Operation.call : Operation → Except ApiError Call
  | list organization options => return .select (← listPath organization) options.params
  | create organization project => do
    let path ← listPath organization
    require .requiredName (isPresent (some project.name))
    Call.resource .post path (draft (some project.name) project.description)
  | read id => return .get (← path id)
  | update id changes => do
    let path ← path id
    require .invalidName (changes.name ≠ some "")
    Call.resource .patch path (draft changes.name changes.description)
  | delete id => return .bare .delete (← path id)

def Operation.answer : Operation → Answer
  | list _ _ => .page .project
  | create _ _ | read _ | update _ _ => .resource .project
  | delete _ => .nothing

end Projects
end TerraformCloud
