/-
  TerraformCloud/Kind/Organization.lean
  =====================================
  **Organizations and their projects.**
-/
import TerraformCloud.Schema.Recorded

namespace TerraformCloud

/-- An organization, to which everything else belongs. -/
structure Organization where
  name : String
  email : Option String
  externalId : Option String
  createdAt : Option Instant
  sessionTimeout : Option UInt32
  sessionRemember : Option UInt32
  collaboratorAuthPolicy : Option String
  costEstimationEnabled : Option Bool
  assessmentsEnforced : Option Bool
  defaultExecutionMode : Option String
deriving DecidableEq, Repr

instance : Attributes Organization where
  fields := .ofList
    [("name", .required, .text), ("email", .defaulted, .optional .text),
     ("external-id", .defaulted, .optional .text), ("created-at", .defaulted, .optional .time),
     ("session-timeout", .defaulted, .optional .natural32),
     ("session-remember", .defaulted, .optional .natural32),
     ("collaborator-auth-policy", .defaulted, .optional .text),
     ("cost-estimation-enabled", .defaulted, .optional .flag),
     ("assessments-enforced", .defaulted, .optional .flag),
     ("default-execution-mode", .defaulted, .optional .text)]
  record o :=
    (o.name, o.email, o.externalId, o.createdAt, o.sessionTimeout, o.sessionRemember,
      o.collaboratorAuthPolicy, o.costEstimationEnabled, o.assessmentsEnforced,
      o.defaultExecutionMode, ())
  ofRecord := fun (name, email, external, created, timeout, remember, policy, cost, assess, mode, ()) =>
    ⟨name, email, external, created, timeout, remember, policy, cost, assess, mode⟩
  ofRecord_record _ := rfl
  record_ofRecord _ := rfl
  type := "organizations"

/-- A project, which groups workspaces of an organization. -/
structure Project where
  name : String
  description : Option String
  createdAt : Option Instant
deriving DecidableEq, Repr

instance : Attributes Project where
  fields := .ofList
    [("name", .required, .text), ("description", .defaulted, .optional .text),
     ("created-at", .defaulted, .optional .time)]
  record p := (p.name, p.description, p.createdAt, ())
  ofRecord := fun (name, description, created, ()) => ⟨name, description, created⟩
  ofRecord_record _ := rfl
  record_ofRecord _ := rfl
  type := "projects"

end TerraformCloud
