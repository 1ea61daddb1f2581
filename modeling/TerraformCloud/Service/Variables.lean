/-
  TerraformCloud/Service/Variables.lean
  =====================================
  **Operations on variables and on variable sets.**
-/
import TerraformCloud.Service.Workspaces

namespace TerraformCloud

/-! ### Variables of a workspace -/

namespace Variables

/-- A variable to be created or changed. -/
structure Settings where
  key : Option String := none
  value : Option String := none
  description : Option String := none
  category : Option Category := none
  hcl : Option Bool := none
  sensitive : Option Bool := none
deriving Repr

def Settings.draft (s : Settings) : Draft :=
  .ofAttributes (Attributes.type Variable)
    [textMember "key" s.key, textMember "value" s.value, textMember "description" s.description,
     textMember "category" (s.category.map Category.spelling), flagMember "hcl" s.hcl,
     flagMember "sensitive" s.sensitive]

/-- A new variable needs a key and a category. -/
def Settings.checkNew (s : Settings) : Except ApiError Unit := do
  require .requiredKey (isPresent s.key)
  require .requiredCategory s.category.isSome

inductive Operation where
  | list (workspaceId : String) (page : PageRequest)
  | create (workspaceId : String) (settings : Settings)
  | read (workspaceId id : String)
  | update (workspaceId id : String) (settings : Settings)
  | delete (workspaceId id : String)
deriving Repr

def listPath (workspaceId : String) : Except ApiError (List String) := do
  return (← Workspaces.idPath workspaceId) ++ ["vars"]

def path (workspaceId id : String) : Except ApiError (List String) := do
  let path ← listPath workspaceId
  require .invalidVariableId (isIdentifier id)
  return path ++ [id]

def Operation.call : Operation → Except ApiError Call
  | list workspaceId page => return .select (← listPath workspaceId) (.object page.members)
  | create workspaceId settings => do
    let path ← listPath workspaceId
    settings.checkNew
    Call.resource .post path settings.draft
  | read workspaceId id => return .get (← path workspaceId id)
  | update workspaceId id settings => do Call.resource .patch (← path workspaceId id) settings.draft
  | delete workspaceId id => return .bare .delete (← path workspaceId id)

def Operation.answer : Operation → Answer
  | list _ _ => .page .variable_
  | create _ _ | read _ _ | update _ _ _ => .resource .variable_
  | delete _ _ => .nothing

end Variables

/-! ### Variable sets -/

namespace VariableSets

structure ListOptions where
  page : PageRequest := {}
  query : Option String := none
  included : List String := []
deriving Repr

instance : Paginated ListOptions where
  page o := o.page
  withPage o p := { o with page := p }

def ListOptions.params (o : ListOptions) : Json.Value :=
  .object (o.page.members ++ [textMember "q" o.query, textsMember "include" o.included])

/-- A variable set to be created or changed. -/
structure Settings where
  name : Option String := none
  description : Option String := none
  global : Option Bool := none
  priority : Option Bool := none
deriving Repr

def Settings.draft (s : Settings) : Draft :=
  .ofAttributes (Attributes.type VariableSet)
    [textMember "name" s.name, textMember "description" s.description,
     flagMember "global" s.global, flagMember "priority" s.priority]

inductive Operation where
  | list (organization : String) (options : ListOptions)
  | create (organization : String) (settings : Settings)
  | read (id : String) (included : List String)
  | update (id : String) (settings : Settings)
  | delete (id : String)
  | applyToWorkspaces (id : String) (workspaceIds : List String)
  | removeFromWorkspaces (id : String) (workspaceIds : List String)
deriving Repr

def path (id : String) : Except ApiError (List String) := do
  require .invalidVariableSetId (isIdentifier id)
  return ["varsets", id]

def listPath (organization : String) : Except ApiError (List String) := do
  return (← Organizations.path organization) ++ ["varsets"]

/-- A workspace that is only referred to. -/
def reference (workspaceId : String) : Draft :=
  ⟨Attributes.type Workspace, some workspaceId, .null, .empty⟩

/-- Adds workspaces to a set, or takes them out of it; there has to be one. -/
def workspacesCall (method : Http.Method) (id : String) (workspaceIds : List String) :
    Except ApiError Call := do
  let path ← path id
  require .requiredWorkspacesList (!workspaceIds.isEmpty)
  require .invalidWorkspaceId (workspaceIds.all isIdentifier)
  let body ← Body.resources (workspaceIds.map reference)
  return { method, segments := path ++ ["relationships", "workspaces"], body := some body }

def Operation.call : Operation → Except ApiError Call
  | list organization options => return .select (← listPath organization) options.params
  | create organization settings => do
    let path ← listPath organization
    require .requiredName (isPresent settings.name)
    Call.resource .post path settings.draft
  | read id included => return .select (← path id) (Workspaces.includeParams included)
  | update id settings => do Call.resource .patch (← path id) settings.draft
  | delete id => return .bare .delete (← path id)
  | applyToWorkspaces id workspaceIds => workspacesCall .post id workspaceIds
  | removeFromWorkspaces id workspaceIds => workspacesCall .delete id workspaceIds

def Operation.answer : Operation → Answer
  | list _ _ => .page .variableSet
  | create _ _ | read _ _ | update _ _ => .resource .variableSet
  | delete _ | applyToWorkspaces _ _ | removeFromWorkspaces _ _ => .nothing

end VariableSets
end TerraformCloud
