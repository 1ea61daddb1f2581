/-
  TerraformCloud/CommandLine/Entity.lean
  ======================================
  **What can be looked at from the command line, and how it is shown.**

  A single resource is shown as a title and one line for each thing worth knowing; what
  is not known has no line.  Of several resources each is one row of a table, with a
  blank cell for what is not known.  The value of a sensitive variable is never shown.
-/
import TerraformCloud.Kind
import TerraformCloud.JsonApi.Resource
import TerraformCloud.Text.Table

namespace TerraformCloud.CommandLine

/-- The resources that the command line knows. -/
inductive Entity where
  | organization | workspace | run | variable_
deriving DecidableEq, Repr

namespace Entity

/-- The names of an entity: its own, and shorter and longer ones. -/
def names : Entity → List String
  | organization => ["organization", "organizations", "org", "orgs"]
  | workspace => ["workspace", "workspaces", "ws"]
  | run => ["run", "runs"]
  | variable_ => ["variable", "variables", "vars"]

def ofName? (name : String) : Option Entity :=
  [organization, workspace, run, variable_].find? fun e => e.names.contains name

def kind : Entity → Kind
  | organization => .organization
  | workspace => .workspace
  | run => .run
  | variable_ => .variable_

abbrev Resource (e : Entity) := TerraformCloud.Resource e.kind.Attributes

end Entity

/-! ### A single resource -/

/-- The least length of the line below a title. -/
def shortestDivider : Nat := 30

/-- The title of a resource, and a line below it. -/
def title (name id : String) : List String :=
  let text := name ++ ": " ++ id
  [text, String.ofList (List.replicate (max shortestDivider text.length) '─')]

/-- A line that names something and says what it is; names take one width. -/
def field (name value : String) : String :=
  name ++ ":" ++ String.ofList (List.replicate (15 - name.length) ' ') ++ value

/-- A line for something that may not be known. -/
def optionalField (name : String) (value : Option String) : List String := (value.map (field name)).toList

def yesNo (b : Bool) : String := if b then "yes" else "no"

/-- What is shown of the value of a variable. -/
def shownValue (v : Variable) : String := if v.sensitive then "(sensitive)" else v.value.getD ""

def organizationLines (r : Resource Organization) : List String :=
  title "Organization" r.id ++ [field "Name" r.attributes.name] ++
    optionalField "Email" r.attributes.email ++
    optionalField "Execution Mode" r.attributes.defaultExecutionMode ++
    optionalField "Created" (r.attributes.createdAt.map Instant.readable)

def workspaceLines (r : Resource Workspace) : List String :=
  title "Workspace" r.id ++ [field "Name" r.attributes.name] ++
    optionalField "Organization" (r.relatedId? "organization") ++
    optionalField "Terraform" r.attributes.terraformVersion ++
    [field "Locked" (yesNo r.attributes.locked), field "Auto Apply" (yesNo r.attributes.autoApply),
     field "Resources" (toString r.attributes.resourceCount)] ++
    optionalField "Current Run" (r.relatedId? "current-run") ++
    if r.attributes.tagNames.isEmpty then [] else [field "Tags" (", ".intercalate r.attributes.tagNames)]

def runLines (r : Resource Run) : List String :=
  title "Run" r.id ++ [field "Status" r.attributes.status.spelling] ++
    optionalField "Message" r.attributes.message ++
    optionalField "Workspace" (r.relatedId? "workspace") ++
    (if r.attributes.isDestroy then [field "Destroy" "yes"] else []) ++
    optionalField "Created" (r.attributes.createdAt.map Instant.readable)

def variableLines (r : Resource Variable) : List String :=
  title "Variable" r.id ++
    [field "Key" r.attributes.key, field "Category" r.attributes.category.spelling,
     field "Value" (shownValue r.attributes)]

namespace Entity

def lines : (e : Entity) → e.Resource → List String
  | organization => organizationLines
  | workspace => workspaceLines
  | run => runLines
  | variable_ => variableLines

/-- A resource as a person is shown it. -/
def summary (e : Entity) (r : e.Resource) : String := "\n".intercalate (e.lines r)

/-! ### Several resources -/

def heading : Entity → List String
  | organization => ["name", "email"]
  | workspace => ["id", "name", "terraform", "locked", "resources"]
  | run => ["id", "status", "message"]
  | variable_ => ["id", "key", "category", "value"]

def row : (e : Entity) → e.Resource → List String
  | organization, r => [Organization.name r.attributes, (Organization.email r.attributes).getD ""]
  | workspace, r =>
    [r.id, Workspace.name r.attributes, (Workspace.terraformVersion r.attributes).getD "",
     if Workspace.locked r.attributes then "true" else "false",
     toString (Workspace.resourceCount r.attributes)]
  | run, r => [r.id, (Run.status r.attributes).spelling, (Run.message r.attributes).getD ""]
  | variable_, r =>
    [r.id, Variable.key r.attributes, (Variable.category r.attributes).spelling,
     shownValue r.attributes]

def table (e : Entity) (rs : List e.Resource) : Table := ⟨e.heading, rs.map e.row⟩

end Entity
end TerraformCloud.CommandLine
