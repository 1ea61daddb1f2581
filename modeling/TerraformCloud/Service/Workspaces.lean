/-
  TerraformCloud/Service/Workspaces.lean
  ======================================
  **Operations on workspaces.**

  A workspace is addressed by its organization and name, or by its id.
-/
import TerraformCloud.Service.Organizations

namespace TerraformCloud.Workspaces

/-! ### Options -/

structure ListOptions where
  page : PageRequest := {}
  search : Option String := none
  tags : Option String := none
  projectId : Option String := none
  included : List String := []
deriving Repr

instance : Paginated ListOptions where
  page o := o.page
  withPage o p := { o with page := p }

def ListOptions.params (o : ListOptions) : Json.Value :=
  .object (o.page.members ++
    [textMember "search[name]" o.search, textMember "search[tags]" o.tags,
     textMember "filter[project][id]" o.projectId, textsMember "include" o.included])

/-- The parameters that ask for related resources. -/
def includeParams (included : List String) : Json.Value := .object [textsMember "include" included]

structure NewWorkspace where
  name : Option String := none
  description : Option String := none
  autoApply : Option Bool := none
  executionMode : Option String := none
  terraformVersion : Option String := none
  workingDirectory : Option String := none
  tagNames : Option (List String) := none
  projectId : Option String := none
deriving Repr

structure Changes where
  name : Option String := none
  description : Option String := none
  autoApply : Option Bool := none
  executionMode : Option String := none
  terraformVersion : Option String := none
  workingDirectory : Option String := none
  projectId : Option String := none
deriving Repr

/-- The relationship to a project, if one is given. -/
def projectRelationship : Option String → Relationships
  | none => .empty
  | some id => .ofList [("project", .toOne (Attributes.type Project) id)]

/-- A list of texts that is sent even when it is empty. -/
def listMember (name : String) (texts : Option (List String)) : List (String × Json.Value) :=
  match texts with
  | none => []
  | some ts => [(name, .array (ts.map .string))]

def NewWorkspace.draft (w : NewWorkspace) : Draft :=
  { type := Attributes.type Workspace
    id := none
    attributes := .object (Schema.sparse
      [textMember "name" w.name, textMember "description" w.description,
       flagMember "auto-apply" w.autoApply, textMember "execution-mode" w.executionMode,
       textMember "terraform-version" w.terraformVersion,
       textMember "working-directory" w.workingDirectory] ++ listMember "tag-names" w.tagNames)
    relationships := projectRelationship w.projectId }

/-- The name has to be an identifier. -/
def NewWorkspace.check (w : NewWorkspace) : Except ApiError Unit := do
  require .requiredName (isPresent w.name)
  require .invalidName (w.name.any isIdentifier)

def Changes.draft (c : Changes) : Draft :=
  { type := Attributes.type Workspace
    id := none
    attributes := .object (Schema.sparse
      [textMember "name" c.name, textMember "description" c.description,
       flagMember "auto-apply" c.autoApply, textMember "execution-mode" c.executionMode,
       textMember "terraform-version" c.terraformVersion,
       textMember "working-directory" c.workingDirectory])
    relationships := projectRelationship c.projectId }

/-- A new name has to be an identifier. -/
def Changes.check (c : Changes) : Except ApiError Unit := require .invalidName (c.name.all isIdentifier)

/-! ### Operations -/

inductive Operation where
  | list (organization : String) (options : ListOptions)
  | create (organization : String) (workspace : NewWorkspace)
  | read (organization name : String) (included : List String)
  | readById (id : String)
  | update (organization name : String) (changes : Changes)
  | updateById (id : String) (changes : Changes)
  | delete (organization name : String)
  | deleteById (id : String)
  | lock (id : String) (reason : Option String)
  | unlock (id : String)
  | forceUnlock (id : String)
deriving Repr

def listPath (organization : String) : Except ApiError (List String) := do
  return (← Organizations.path organization) ++ ["workspaces"]

def namedPath (organization name : String) : Except ApiError (List String) := do
  let path ← listPath organization
  require .invalidWorkspaceValue (isIdentifier name)
  return path ++ [name]

def idPath (id : String) : Except ApiError (List String) := do
  require .invalidWorkspaceId (isIdentifier id)
  return ["workspaces", id]

/-- The path of something that can be done with a workspace. -/
def actionPath (id action : String) : Except ApiError (List String) := do
  return (← idPath id) ++ ["actions", action]

def Operation.call : Operation → Except ApiError Call
  | list organization options => return .select (← listPath organization) options.params
  | create organization workspace => do
    let path ← listPath organization
    workspace.check
    Call.resource .post path workspace.draft
  | read organization name included =>
    return .select (← namedPath organization name) (includeParams included)
  | readById id => return .get (← idPath id)
  | update organization name changes => do
    let path ← namedPath organization name
    changes.check
    Call.resource .patch path changes.draft
  | updateById id changes => do
    let path ← idPath id
    changes.check
    Call.resource .patch path changes.draft
  | delete organization name => return .bare .delete (← namedPath organization name)
  | deleteById id => return .bare .delete (← idPath id)
  | lock id reason =>
    return .json (← actionPath id "lock") (.object (Schema.sparse [textMember "reason" reason]))
  | unlock id => return .bare .post (← actionPath id "unlock")
  | forceUnlock id => return .bare .post (← actionPath id "force-unlock")

def Operation.answer : Operation → Answer
  | list _ _ => .page .workspace
  | delete _ _ | deleteById _ => .nothing
  | _ => .resource .workspace

end TerraformCloud.Workspaces
