/-
  TerraformCloud/Schema/Vocabulary.lean
  =====================================
  **Closed vocabularies of the service.**

  A status or a kind is one word of a fixed vocabulary.  The service adds words over
  time, so most vocabularies have a word `unknown` for every spelling that is not
  known; one without it rejects such a spelling.
-/

namespace TerraformCloud

/-! ### The words -/

/-- Where a run stands. -/
inductive RunStatus where
  | pending | fetchingCompleted | queuing | planQueued | planning | planned | costEstimating
  | costEstimated | policyChecking | policyOverride | policySoftFailed | policyChecked
  | confirmed | plannedAndFinished | applyQueued | applying | applied | discarded | errored
  | canceled | forceCanceled | unknown
deriving DecidableEq, Repr

/-- Where a plan or an apply stands. -/
inductive PhaseStatus where
  | pending | managedQueued | queued | running | errored | canceled | finished | unreachable
  | unknown
deriving DecidableEq, Repr

/-- What a variable is for. -/
inductive Category where
  | terraform | env | unknown
deriving DecidableEq, Repr

/-- Where notifications go. -/
inductive Destination where
  | generic | email | slack | microsoftTeams | unknown
deriving DecidableEq, Repr

/-- The language of a policy. -/
inductive PolicyKind where
  | sentinel | opa | unknown
deriving DecidableEq, Repr

/-- How strictly a policy binds. -/
inductive Enforcement where
  | advisory | softMandatory | hardMandatory | mandatory | unknown
deriving DecidableEq, Repr

/-- Which registry something is published in. -/
inductive RegistryName where
  | private_ | public_
deriving DecidableEq, Repr

/-! ### Their spellings -/

namespace RunStatus

def all : List RunStatus :=
  [pending, fetchingCompleted, queuing, planQueued, planning, planned, costEstimating,
   costEstimated, policyChecking, policyOverride, policySoftFailed, policyChecked, confirmed,
   plannedAndFinished, applyQueued, applying, applied, discarded, errored, canceled,
   forceCanceled, unknown]

def spelling : RunStatus → String
  | pending => "pending"
  | fetchingCompleted => "fetching_completed"
  | queuing => "queuing"
  | planQueued => "plan_queued"
  | planning => "planning"
  | planned => "planned"
  | costEstimating => "cost_estimating"
  | costEstimated => "cost_estimated"
  | policyChecking => "policy_checking"
  | policyOverride => "policy_override"
  | policySoftFailed => "policy_soft_failed"
  | policyChecked => "policy_checked"
  | confirmed => "confirmed"
  | plannedAndFinished => "planned_and_finished"
  | applyQueued => "apply_queued"
  | applying => "applying"
  | applied => "applied"
  | discarded => "discarded"
  | errored => "errored"
  | canceled => "canceled"
  | forceCanceled => "force_canceled"
  | unknown => "unknown"

/-- Whether nothing more happens to the run. -/
def isFinal (s : RunStatus) : Bool :=
  [applied, plannedAndFinished, discarded, errored, canceled, forceCanceled, policySoftFailed].contains s

end RunStatus

namespace PhaseStatus

def all : List PhaseStatus :=
  [pending, managedQueued, queued, running, errored, canceled, finished, unreachable, unknown]

def spelling : PhaseStatus → String
  | pending => "pending"
  | managedQueued => "managed_queued"
  | queued => "queued"
  | running => "running"
  | errored => "errored"
  | canceled => "canceled"
  | finished => "finished"
  | unreachable => "unreachable"
  | unknown => "unknown"

/-- Whether the plan or apply writes no more output. -/
def isFinal (s : PhaseStatus) : Bool := [errored, canceled, finished, unreachable].contains s

end PhaseStatus

namespace Category

def all : List Category := [terraform, env, unknown]

def spelling : Category → String
  | terraform => "terraform"
  | env => "env"
  | unknown => "unknown"

end Category

namespace Destination

def all : List Destination := [generic, email, slack, microsoftTeams, unknown]

def spelling : Destination → String
  | generic => "generic"
  | email => "email"
  | slack => "slack"
  | microsoftTeams => "microsoft-teams"
  | unknown => "unknown"

/-- Whether notifications of this kind are posted to a URL. -/
def requiresUrl (d : Destination) : Bool := [generic, slack, microsoftTeams].contains d

end Destination

namespace PolicyKind

def all : List PolicyKind := [sentinel, opa, unknown]

def spelling : PolicyKind → String
  | sentinel => "sentinel"
  | opa => "opa"
  | unknown => "unknown"

end PolicyKind

namespace Enforcement

def all : List Enforcement := [advisory, softMandatory, hardMandatory, mandatory, unknown]

def spelling : Enforcement → String
  | advisory => "advisory"
  | softMandatory => "soft-mandatory"
  | hardMandatory => "hard-mandatory"
  | mandatory => "mandatory"
  | unknown => "unknown"

end Enforcement

namespace RegistryName

def all : List RegistryName := [private_, public_]

def spelling : RegistryName → String
  | private_ => "private"
  | public_ => "public"

end RegistryName

/-! ### Vocabularies -/

/-- The vocabularies that occur in documents. -/
inductive Vocabulary where
  | runStatus | phaseStatus | category | destination | policyKind | enforcement | registryName
deriving DecidableEq, Repr

namespace Vocabulary

def Word : Vocabulary → Type
  | runStatus => RunStatus
  | phaseStatus => PhaseStatus
  | category => Category
  | destination => Destination
  | policyKind => PolicyKind
  | enforcement => Enforcement
  | registryName => RegistryName

instance : (v : Vocabulary) → DecidableEq v.Word
  | runStatus => inferInstanceAs (DecidableEq RunStatus)
  | phaseStatus => inferInstanceAs (DecidableEq PhaseStatus)
  | category => inferInstanceAs (DecidableEq Category)
  | destination => inferInstanceAs (DecidableEq Destination)
  | policyKind => inferInstanceAs (DecidableEq PolicyKind)
  | enforcement => inferInstanceAs (DecidableEq Enforcement)
  | registryName => inferInstanceAs (DecidableEq RegistryName)

def words : (v : Vocabulary) → List v.Word
  | runStatus => RunStatus.all
  | phaseStatus => PhaseStatus.all
  | category => Category.all
  | destination => Destination.all
  | policyKind => PolicyKind.all
  | enforcement => Enforcement.all
  | registryName => RegistryName.all

def spelling : (v : Vocabulary) → v.Word → String
  | runStatus => RunStatus.spelling
  | phaseStatus => PhaseStatus.spelling
  | category => Category.spelling
  | destination => Destination.spelling
  | policyKind => PolicyKind.spelling
  | enforcement => Enforcement.spelling
  | registryName => RegistryName.spelling

/-- The word for spellings that are not known. -/
def fallback : (v : Vocabulary) → Option v.Word
  | runStatus => some RunStatus.unknown
  | phaseStatus => some PhaseStatus.unknown
  | category => some Category.unknown
  | destination => some Destination.unknown
  | policyKind => some PolicyKind.unknown
  | enforcement => some Enforcement.unknown
  | registryName => none

/-- The word that stands where none is written: the first one. -/
def first : (v : Vocabulary) → v.Word
  | runStatus => RunStatus.pending
  | phaseStatus => PhaseStatus.pending
  | category => Category.terraform
  | destination => Destination.generic
  | policyKind => PolicyKind.sentinel
  | enforcement => Enforcement.advisory
  | registryName => RegistryName.private_

/-- The word that a spelling means. -/
def read? (v : Vocabulary) (s : String) : Option v.Word :=
  match v.words.find? (fun w => v.spelling w = s) with
  | some w => some w
  | none => v.fallback

end Vocabulary
end TerraformCloud
