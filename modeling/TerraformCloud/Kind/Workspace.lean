/-
  TerraformCloud/Kind/Workspace.lean
  ==================================
  **Workspaces and what is configured for them.**

  A workspace holds the state of one configuration.  Variables feed its runs, one by
  one or in sets that several workspaces share, and notifications report on them.
-/
import TerraformCloud.Schema.Recorded

namespace TerraformCloud

/-! ### Workspaces -/

/-- A workspace of an organization. -/
structure Workspace where
  name : String
  description : Option String
  autoApply : Bool
  allowDestroyPlan : Bool
  locked : Bool
  executionMode : Option String
  terraformVersion : Option String
  workingDirectory : Option String
  queueAllRuns : Bool
  speculativeEnabled : Bool
  resourceCount : UInt64
  tagNames : List String
  createdAt : Option Instant
  updatedAt : Option Instant
deriving DecidableEq, Repr

instance : Attributes Workspace where
  fields := .ofList
    [("name", .required, .text), ("description", .defaulted, .optional .text),
     ("auto-apply", .defaulted, .flag), ("allow-destroy-plan", .defaulted, .flag),
     ("locked", .defaulted, .flag), ("execution-mode", .defaulted, .optional .text),
     ("terraform-version", .defaulted, .optional .text),
     ("working-directory", .defaulted, .optional .text), ("queue-all-runs", .defaulted, .flag),
     ("speculative-enabled", .defaulted, .flag), ("resource-count", .defaulted, .natural64),
     ("tag-names", .defaulted, .list .text), ("created-at", .defaulted, .optional .time),
     ("updated-at", .defaulted, .optional .time)]
  record w :=
    (w.name, w.description, w.autoApply, w.allowDestroyPlan, w.locked, w.executionMode,
      w.terraformVersion, w.workingDirectory, w.queueAllRuns, w.speculativeEnabled,
      w.resourceCount, w.tagNames, w.createdAt, w.updatedAt, ())
  ofRecord := fun (name, description, auto, destroy, locked, mode, version, directory, queue,
      speculative, count, tags, created, updated, ()) =>
    ⟨name, description, auto, destroy, locked, mode, version, directory, queue, speculative, count,
      tags, created, updated⟩
  ofRecord_record _ := rfl
  record_ofRecord _ := rfl
  type := "workspaces"

/-! ### Variables -/

/-- A variable of a workspace.  The value of a sensitive one is never sent back. -/
structure Variable where
  key : String
  value : Option String
  description : Option String
  category : Category
  hcl : Bool
  sensitive : Bool
deriving DecidableEq, Repr

instance : Attributes Variable where
  fields := .ofList
    [("key", .required, .text), ("value", .defaulted, .optional .text),
     ("description", .defaulted, .optional .text), ("category", .required, .word .category),
     ("hcl", .defaulted, .flag), ("sensitive", .defaulted, .flag)]
  record v := (v.key, v.value, v.description, v.category, v.hcl, v.sensitive, ())
  ofRecord := fun (key, value, description, category, hcl, sensitive, ()) =>
    ⟨key, value, description, category, hcl, sensitive⟩
  ofRecord_record _ := rfl
  record_ofRecord _ := rfl
  type := "vars"

/-- A set of variables that several workspaces share. -/
structure VariableSet where
  name : String
  description : Option String
  global : Bool
  priority : Bool
  varCount : UInt32
  workspaceCount : UInt32
  updatedAt : Option Instant
deriving DecidableEq, Repr

instance : Attributes VariableSet where
  fields := .ofList
    [("name", .required, .text), ("description", .defaulted, .optional .text),
     ("global", .defaulted, .flag), ("priority", .defaulted, .flag),
     ("var-count", .defaulted, .natural32), ("workspace-count", .defaulted, .natural32),
     ("updated-at", .defaulted, .optional .time)]
  record s :=
    (s.name, s.description, s.global, s.priority, s.varCount, s.workspaceCount, s.updatedAt, ())
  ofRecord := fun (name, description, global_, priority, varCount, workspaceCount, updated, ()) =>
    ⟨name, description, global_, priority, varCount, workspaceCount, updated⟩
  ofRecord_record _ := rfl
  record_ofRecord _ := rfl
  type := "varsets"

/-! ### Notifications -/

/-- What came back from one delivery of a notification. -/
structure DeliveryResponse where
  url : Option String
  body : Option String
  code : Option String
  successful : Option String
  sentAt : Option Instant
deriving DecidableEq, Repr

instance : Recorded DeliveryResponse where
  fields := .ofList
    [("url", .defaulted, .optional .text), ("body", .defaulted, .optional .text),
     ("code", .defaulted, .optional .text), ("successful", .defaulted, .optional .text),
     ("sent-at", .defaulted, .optional .time)]
  record d := (d.url, d.body, d.code, d.successful, d.sentAt, ())
  ofRecord := fun (url, body, code, successful, sent, ()) => ⟨url, body, code, successful, sent⟩
  ofRecord_record _ := rfl
  record_ofRecord _ := rfl

/-- A rule that says which events of a workspace are reported where. -/
structure NotificationConfiguration where
  name : String
  destinationType : Destination
  enabled : Bool
  url : Option String
  triggers : List String
  deliveryResponses : List DeliveryResponse
  createdAt : Option Instant
  updatedAt : Option Instant
deriving DecidableEq, Repr

instance : Attributes NotificationConfiguration where
  fields := .ofList
    [("name", .required, .text), ("destination-type", .required, .word .destination),
     ("enabled", .defaulted, .flag), ("url", .defaulted, .optional .text),
     ("triggers", .defaulted, .list .text),
     ("delivery-responses", .defaulted, .list (.record (Recorded.fields DeliveryResponse))),
     ("created-at", .defaulted, .optional .time), ("updated-at", .defaulted, .optional .time)]
  record n :=
    (n.name, n.destinationType, n.enabled, n.url, n.triggers,
      n.deliveryResponses.map Recorded.record, n.createdAt, n.updatedAt, ())
  ofRecord := fun (name, destination, enabled, url, triggers, deliveries, created, updated, ()) =>
    ⟨name, destination, enabled, url, triggers, deliveries.map Recorded.ofRecord, created, updated⟩
  ofRecord_record n := by simp only [Recorded.map_ofRecord_map_record]
  record_ofRecord r := by
    obtain ⟨name, destination, enabled, url, triggers, deliveries, created, updated, _⟩ := r
    exact congrArg (fun d => (name, destination, enabled, url, triggers, d, created, updated, ()))
      (Recorded.map_record_map_ofRecord deliveries)
  type := "notification-configurations"

end TerraformCloud
