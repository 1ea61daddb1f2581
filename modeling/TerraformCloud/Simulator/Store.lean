/-
  TerraformCloud/Simulator/Store.lean
  ===================================
  **What a simulated service knows.**

  Organizations are kept by name and workspaces by id.  A workspace says itself which
  organization it belongs to, so the workspaces of an organization are found by
  looking at all of them; they are listed by name, and those of one name by id.
-/
import TerraformCloud.JsonApi.Resource
import TerraformCloud.Kind.Organization
import TerraformCloud.Kind.Workspace

namespace TerraformCloud.Simulator

/-- The name of the relationship to the organization that a workspace belongs to. -/
def ownerName : String := "organization"

/-- The state of a simulated service. -/
structure Store where
  organizations : Keyed (Resource Organization)
  workspaces : Keyed (Resource Workspace)
  /-- The only secret that is accepted; any caller will do without one. -/
  requiredToken : Option String
  /-- The number of requests per second that is announced. -/
  rateLimit : Option UInt32
  apiVersion : String
  /-- The number of the next id that is given out. -/
  nextNumber : Nat

namespace Store

def empty : Store :=
  { organizations := .empty, workspaces := .empty, requiredToken := none, rateLimit := none,
    apiVersion := "2.6", nextNumber := 1 }

def withOrganization (s : Store) (o : Resource Organization) : Store :=
  { s with organizations := s.organizations.insert o.id o }

def withWorkspace (s : Store) (w : Resource Workspace) : Store :=
  { s with workspaces := s.workspaces.insert w.id w }

/-- Gives out an id: a word, and a number of at least sixteen digits. -/
def newId (s : Store) (word : String) : String × Store :=
  let digits := Nat.toDigits 10 s.nextNumber
  (word ++ "-" ++ String.ofList (List.replicate (16 - digits.length) '0' ++ digits),
    { s with nextNumber := s.nextNumber + 1 })

/-! ### Looking up -/

/-- The organization that a workspace belongs to. -/
def owner? (w : Resource Workspace) : Option String := w.relatedId? ownerName

/-- Whether a workspace belongs to an organization and has a name. -/
def isNamed (organization name : String) (w : Resource Workspace) : Bool :=
  owner? w = some organization && w.attributes.name = name

/-- The workspaces of an organization, by name. -/
def workspacesOf (s : Store) (organization : String) : List (Resource Workspace) :=
  (s.workspaces.values.filter (fun w => owner? w = some organization)).mergeSort
    (fun a b => a.attributes.name ≤ b.attributes.name)

/-- The workspace of an organization with a name. -/
def findWorkspace? (s : Store) (organization name : String) : Option (Resource Workspace) :=
  (s.workspacesOf organization).find? (fun w => w.attributes.name = name)

/-- The workspace of an organization with a name, and the key that it is kept under: the
    first one by key.  This is where it is changed. -/
def findEntry? (s : Store) (organization name : String) : Option (String × Resource Workspace) :=
  s.workspaces.entries.find? (fun e => isNamed organization name e.2)

/-! ### Changing -/

/-- Changes the workspace of an organization with a name, the first one by id, and
    gives the id that the changed workspace has. -/
def changeWorkspace (s : Store) (organization name : String) (f : Workspace → Workspace) :
    Option (String × Store) :=
  match s.findEntry? organization name with
  | none => none
  | some (key, w) =>
    some (w.id, { s with workspaces := s.workspaces.insert key { w with attributes := f w.attributes } })

/-- Takes out the workspace of an organization with a name. -/
def removeWorkspace (s : Store) (organization name : String) : Option (Resource Workspace) × Store :=
  match s.findWorkspace? organization name with
  | none => (none, s)
  | some w => (s.workspaces.find? w.id, { s with workspaces := s.workspaces.erase w.id })

/-- Takes out an organization with its workspaces. -/
def removeOrganization (s : Store) (name : String) : Store :=
  { s with
    organizations := s.organizations.erase name
    workspaces := s.workspaces.filter (fun _ w => owner? w ≠ some name) }

end Store
end TerraformCloud.Simulator
