/-
  TerraformCloud/Service.lean
  ===========================
  **All operations of the service.**

  An operation is checked first; only if nothing is wrong with its arguments does it
  stand for a request, and only then is anything sent.
-/
import TerraformCloud.Service.Notifications
import TerraformCloud.Service.Registry
import TerraformCloud.Service.Runs
import TerraformCloud.Service.Variables

namespace TerraformCloud

inductive Operation where
  | organizations (op : Organizations.Operation)
  | projects (op : Projects.Operation)
  | workspaces (op : Workspaces.Operation)
  | runs (op : Runs.Operation)
  /-- Reads a plan or an apply. -/
  | phase (which : Phase) (id : String)
  | workspaceVariables (op : Variables.Operation)
  | variableSets (op : VariableSets.Operation)
  | notifications (op : Notifications.Operation)
  | policies (op : Policies.Operation)
  | registryProviders (op : RegistryProviders.Operation)
  | registryModules (op : RegistryModules.Operation)
deriving Repr

namespace Operation

/-- The request that an operation stands for. -/
def call : Operation → Except ApiError Call
  | organizations op => op.call
  | projects op => op.call
  | workspaces op => op.call
  | runs op => op.call
  | phase which id => which.call id
  | workspaceVariables op => op.call
  | variableSets op => op.call
  | notifications op => op.call
  | policies op => op.call
  | registryProviders op => op.call
  | registryModules op => op.call

/-- What an operation answers. -/
def answer : Operation → Answer
  | organizations op => op.answer
  | projects op => op.answer
  | workspaces op => op.answer
  | runs op => op.answer
  | phase which _ => .resource which.kind
  | workspaceVariables op => op.answer
  | variableSets op => op.answer
  | notifications op => op.answer
  | policies op => op.answer
  | registryProviders op => op.answer
  | registryModules op => op.answer

/-- The request that an operation stands for, as a client makes it. -/
def request (op : Operation) (c : Client) : Except ApiError ApiRequest :=
  op.call.bind fun call => call.request c

variable {σ : Type}

/-- Performs an operation over a link. -/
def perform (link : Link σ) (c : Client) (op : Operation) (s : σ) : Result σ op.answer.Value :=
  match op.request c with
  | .error e => (.error e, s)
  | .ok r => link.fetch c r op.answer.read s

end Operation

/-! ### Pages of lists -/

/-- Lists of resources, without the page that is asked for. -/
inductive Listing where
  | organizations (options : Organizations.ListOptions)
  | projects (organization : String) (options : Projects.ListOptions)
  | workspaces (organization : String) (options : Workspaces.ListOptions)
  | runs (workspaceId : String) (options : Runs.ListOptions)
  | workspaceVariables (workspaceId : String) (page : PageRequest)
  | variableSets (organization : String) (options : VariableSets.ListOptions)
  | notifications (workspaceId : String) (page : PageRequest)
  | policies (organization : String) (options : Policies.ListOptions)
  | registryProviders (organization : String) (options : RegistryProviders.ListOptions)
deriving Repr

namespace Listing

def operation : Listing → Operation
  | organizations options => .organizations (.list options)
  | projects organization options => .projects (.list organization options)
  | workspaces organization options => .workspaces (.list organization options)
  | runs workspaceId options => .runs (.list workspaceId options)
  | workspaceVariables workspaceId page => .workspaceVariables (.list workspaceId page)
  | variableSets organization options => .variableSets (.list organization options)
  | notifications workspaceId page => .notifications (.list workspaceId page)
  | policies organization options => .policies (.list organization options)
  | registryProviders organization options => .registryProviders (.list organization options)

def kind : Listing → Kind
  | organizations _ => .organization
  | projects _ _ => .project
  | workspaces _ _ => .workspace
  | runs _ _ => .run
  | workspaceVariables _ _ => .variable_
  | variableSets _ _ => .variableSet
  | notifications _ _ => .notification
  | policies _ _ => .policy
  | registryProviders _ _ => .registryProvider

def page : Listing → PageRequest
  | organizations o => o.page
  | projects _ o => o.page
  | workspaces _ o => o.page
  | runs _ o => o.page
  | workspaceVariables _ p => p
  | variableSets _ o => o.page
  | notifications _ p => p
  | policies _ o => o.page
  | registryProviders _ o => o.page

/-- The same list, at another page. -/
def withPage : Listing → PageRequest → Listing
  | organizations o, p => .organizations (Paginated.withPage o p)
  | projects org o, p => .projects org (Paginated.withPage o p)
  | workspaces org o, p => .workspaces org (Paginated.withPage o p)
  | runs id o, p => .runs id (Paginated.withPage o p)
  | workspaceVariables id _, p => .workspaceVariables id p
  | variableSets org o, p => .variableSets org (Paginated.withPage o p)
  | notifications id _, p => .notifications id p
  | policies org o, p => .policies org (Paginated.withPage o p)
  | registryProviders org o, p => .registryProviders org (Paginated.withPage o p)

instance : Paginated Listing := ⟨page, withPage⟩

variable {σ : Type}

/-- Reads one page of a list of resources of a kind. -/
def fetch (link : Link σ) (c : Client) (kind : Kind) (l : Listing) (s : σ) :
    Result σ (Page (Resource kind.Attributes) Pagination) :=
  match l.operation.request c with
  | .error e => (.error e, s)
  | .ok r => link.fetch c r (Answer.page kind).read s

end Listing
end TerraformCloud
