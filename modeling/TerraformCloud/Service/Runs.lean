/-
  TerraformCloud/Service/Runs.lean
  ================================
  **Operations on runs, plans and applies.**
-/
import TerraformCloud.Service.Workspaces

namespace TerraformCloud

/-! ### Runs -/

namespace Runs

structure ListOptions where
  page : PageRequest := {}
  status : List String := []
  source : List String := []
  user : Option String := none
  included : List String := []
deriving Repr

instance : Paginated ListOptions where
  page o := o.page
  withPage o p := { o with page := p }

def ListOptions.params (o : ListOptions) : Json.Value :=
  .object (o.page.members ++
    [textsMember "filter[status]" o.status, textsMember "filter[source]" o.source,
     textMember "search[user]" o.user, textsMember "include" o.included])

structure NewRun where
  workspaceId : Option String := none
  configurationVersionId : Option String := none
  message : Option String := none
  isDestroy : Option Bool := none
  autoApply : Option Bool := none
  planOnly : Option Bool := none
  refreshOnly : Option Bool := none
  targetAddrs : List String := []
  replaceAddrs : List String := []
deriving Repr

/-- The relationship to one resource, if its id is given. -/
def related (name type : String) : Option String → List (String × Relationship)
  | none => []
  | some id => [(name, .toOne type id)]

def NewRun.draft (r : NewRun) : Draft :=
  { type := Attributes.type Run
    id := none
    attributes := .object (Schema.sparse
      [textMember "message" r.message, flagMember "is-destroy" r.isDestroy,
       flagMember "auto-apply" r.autoApply, flagMember "plan-only" r.planOnly,
       flagMember "refresh-only" r.refreshOnly, textsMember "target-addrs" r.targetAddrs,
       textsMember "replace-addrs" r.replaceAddrs])
    relationships := .ofList
      (related "workspace" (Attributes.type Workspace) r.workspaceId ++
        related "configuration-version" "configuration-versions" r.configurationVersionId) }

/-- What a person can do with a run. -/
inductive Action where
  | apply | cancel | forceCancel | discard
deriving DecidableEq, Repr

def Action.segment : Action → String
  | apply => "apply"
  | cancel => "cancel"
  | forceCancel => "force-cancel"
  | discard => "discard"

inductive Operation where
  | list (workspaceId : String) (options : ListOptions)
  | create (run : NewRun)
  | read (id : String) (included : List String)
  | act (id : String) (action : Action) (comment : Option String)
deriving Repr

def path (id : String) : Except ApiError (List String) := do
  require .invalidRunId (isIdentifier id)
  return ["runs", id]

def Operation.call : Operation → Except ApiError Call
  | list workspaceId options =>
    return .select ((← Workspaces.idPath workspaceId) ++ ["runs"]) options.params
  | create run => do
    require .requiredWorkspace (isPresent run.workspaceId)
    Call.resource .post ["runs"] run.draft
  | read id included => return .select (← path id) (Workspaces.includeParams included)
  | act id action comment =>
    return .json ((← path id) ++ ["actions", action.segment])
      (.object (Schema.sparse [textMember "comment" comment]))

def Operation.answer : Operation → Answer
  | list _ _ => .page .run
  | create _ | read _ _ => .resource .run
  | act _ _ _ => .nothing

end Runs

/-! ### Plans and applies -/

/-- The two phases of a run, each of which writes a log. -/
inductive Phase where
  | plan
  | apply
deriving DecidableEq, Repr

namespace Phase

/-- The kind of the resource that stands for the phase. -/
def kind : Phase → Kind
  | plan => .plan
  | apply => .apply

def path : Phase → String → Except ApiError (List String)
  | plan, id => do
    require .invalidPlanId (isIdentifier id)
    return ["plans", id]
  | apply, id => do
    require .invalidApplyId (isIdentifier id)
    return ["applies", id]

/-- Reads the plan or apply with an id. -/
def call (phase : Phase) (id : String) : Except ApiError Call := return .get (← phase.path id)

/-- Where a plan or an apply stands, and where its log is. -/
def statusAndLog : (phase : Phase) → phase.kind.Attributes → PhaseStatus × Option String
  | plan, a => (Plan.status a, Plan.logReadUrl a)
  | apply, a => (Apply.status a, Apply.logReadUrl a)

end Phase
end TerraformCloud
