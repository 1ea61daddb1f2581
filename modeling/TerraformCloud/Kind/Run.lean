/-
  TerraformCloud/Kind/Run.lean
  ============================
  **Runs, and the plan and the apply that they consist of.**
-/
import TerraformCloud.Schema.Recorded

namespace TerraformCloud

/-- What may be done with a run now. -/
structure RunActions where
  isCancelable : Bool
  isConfirmable : Bool
  isDiscardable : Bool
  isForceCancelable : Bool
deriving DecidableEq, Repr

instance : Recorded RunActions where
  fields := .ofList
    [("is-cancelable", .defaulted, .flag), ("is-confirmable", .defaulted, .flag),
     ("is-discardable", .defaulted, .flag), ("is-force-cancelable", .defaulted, .flag)]
  record a := (a.isCancelable, a.isConfirmable, a.isDiscardable, a.isForceCancelable, ())
  ofRecord := fun (cancel, confirm, discard, force, ()) => ⟨cancel, confirm, discard, force⟩
  ofRecord_record _ := rfl
  record_ofRecord _ := rfl

/-- One run of a workspace's configuration. -/
structure Run where
  status : RunStatus
  message : Option String
  source : Option String
  triggerReason : Option String
  isDestroy : Bool
  hasChanges : Bool
  autoApply : Bool
  planOnly : Bool
  actions : RunActions
  createdAt : Option Instant
deriving DecidableEq, Repr

instance : Attributes Run where
  fields := .ofList
    [("status", .required, .word .runStatus), ("message", .defaulted, .optional .text),
     ("source", .defaulted, .optional .text), ("trigger-reason", .defaulted, .optional .text),
     ("is-destroy", .defaulted, .flag), ("has-changes", .defaulted, .flag),
     ("auto-apply", .defaulted, .flag), ("plan-only", .defaulted, .flag),
     ("actions", .defaulted, .record (Recorded.fields RunActions)),
     ("created-at", .defaulted, .optional .time)]
  record r :=
    (r.status, r.message, r.source, r.triggerReason, r.isDestroy, r.hasChanges, r.autoApply,
      r.planOnly, Recorded.record r.actions, r.createdAt, ())
  ofRecord := fun (status, message, source, reason, destroy, changes, auto, only, actions, created, ()) =>
    ⟨status, message, source, reason, destroy, changes, auto, only, Recorded.ofRecord actions, created⟩
  ofRecord_record _ := rfl
  record_ofRecord _ := rfl
  type := "runs"

/-- The plan of a run. -/
structure Plan where
  status : PhaseStatus
  hasChanges : Bool
  resourceAdditions : UInt32
  resourceChanges : UInt32
  resourceDestructions : UInt32
  logReadUrl : Option String
deriving DecidableEq, Repr

instance : Attributes Plan where
  fields := .ofList
    [("status", .required, .word .phaseStatus), ("has-changes", .defaulted, .flag),
     ("resource-additions", .defaulted, .natural32), ("resource-changes", .defaulted, .natural32),
     ("resource-destructions", .defaulted, .natural32),
     ("log-read-url", .defaulted, .optional .text)]
  record p :=
    (p.status, p.hasChanges, p.resourceAdditions, p.resourceChanges, p.resourceDestructions,
      p.logReadUrl, ())
  ofRecord := fun (status, changed, additions, changes, destructions, url, ()) =>
    ⟨status, changed, additions, changes, destructions, url⟩
  ofRecord_record _ := rfl
  record_ofRecord _ := rfl
  type := "plans"

/-- The apply of a run. -/
structure Apply where
  status : PhaseStatus
  resourceAdditions : UInt32
  resourceChanges : UInt32
  resourceDestructions : UInt32
  logReadUrl : Option String
deriving DecidableEq, Repr

instance : Attributes Apply where
  fields := .ofList
    [("status", .required, .word .phaseStatus),
     ("resource-additions", .defaulted, .natural32), ("resource-changes", .defaulted, .natural32),
     ("resource-destructions", .defaulted, .natural32),
     ("log-read-url", .defaulted, .optional .text)]
  record a :=
    (a.status, a.resourceAdditions, a.resourceChanges, a.resourceDestructions, a.logReadUrl, ())
  ofRecord := fun (status, additions, changes, destructions, url, ()) =>
    ⟨status, additions, changes, destructions, url⟩
  ofRecord_record _ := rfl
  record_ofRecord _ := rfl
  type := "applies"

end TerraformCloud
