/-
  TerraformCloud/Kind/Registry.lean
  =================================
  **Policies, and what an organization publishes in its registry.**

  Providers and modules are resources of the organization.  The versions of a module
  come from the registry itself, which speaks plain JSON.
-/
import TerraformCloud.Schema.Recorded

namespace TerraformCloud

/-! ### Policies -/

/-- A policy that runs are checked against. -/
structure Policy where
  name : String
  description : Option String
  kind : PolicyKind
  query : Option String
  enforcementLevel : Option Enforcement
  policySetCount : UInt32
  updatedAt : Option Instant
deriving DecidableEq, Repr

instance : Attributes Policy where
  fields := .ofList
    [("name", .required, .text), ("description", .defaulted, .optional .text),
     ("kind", .defaulted, .word .policyKind), ("query", .defaulted, .optional .text),
     ("enforcement-level", .defaulted, .optional (.word .enforcement)),
     ("policy-set-count", .defaulted, .natural32), ("updated-at", .defaulted, .optional .time)]
  record p :=
    (p.name, p.description, p.kind, p.query, p.enforcementLevel, p.policySetCount, p.updatedAt, ())
  ofRecord := fun (name, description, kind, query, level, count, updated, ()) =>
    ⟨name, description, kind, query, level, count, updated⟩
  ofRecord_record _ := rfl
  record_ofRecord _ := rfl
  type := "policies"

/-! ### The registry -/

/-- A provider in the registry. -/
structure RegistryProvider where
  name : String
  space : String
  registryName : RegistryName
  createdAt : Option Instant
  updatedAt : Option Instant
deriving DecidableEq, Repr

instance : Attributes RegistryProvider where
  fields := .ofList
    [("name", .required, .text), ("namespace", .required, .text),
     ("registry-name", .required, .word .registryName),
     ("created-at", .defaulted, .optional .time), ("updated-at", .defaulted, .optional .time)]
  record p := (p.name, p.space, p.registryName, p.createdAt, p.updatedAt, ())
  ofRecord := fun (name, space, registry, created, updated, ()) => ⟨name, space, registry, created, updated⟩
  ofRecord_record _ := rfl
  record_ofRecord _ := rfl
  type := "registry-providers"

/-- Where one version of a module stands. -/
structure VersionStatus where
  version : String
  status : String
deriving DecidableEq, Repr

instance : Recorded VersionStatus where
  fields := .ofList [("version", .required, .text), ("status", .required, .text)]
  record s := (s.version, s.status, ())
  ofRecord := fun (version, status, ()) => ⟨version, status⟩
  ofRecord_record _ := rfl
  record_ofRecord _ := rfl

/-- A module in the registry. -/
structure RegistryModule where
  name : String
  space : String
  provider : String
  registryName : RegistryName
  status : Option String
  versionStatuses : List VersionStatus
  createdAt : Option Instant
  updatedAt : Option Instant
deriving DecidableEq, Repr

instance : Attributes RegistryModule where
  fields := .ofList
    [("name", .required, .text), ("namespace", .required, .text), ("provider", .required, .text),
     ("registry-name", .required, .word .registryName), ("status", .defaulted, .optional .text),
     ("version-statuses", .defaulted, .list (.record (Recorded.fields VersionStatus))),
     ("created-at", .defaulted, .optional .time), ("updated-at", .defaulted, .optional .time)]
  record m :=
    (m.name, m.space, m.provider, m.registryName, m.status,
      m.versionStatuses.map Recorded.record, m.createdAt, m.updatedAt, ())
  ofRecord := fun (name, space, provider, registry, status, versions, created, updated, ()) =>
    ⟨name, space, provider, registry, status, versions.map Recorded.ofRecord, created, updated⟩
  ofRecord_record m := by simp only [Recorded.map_ofRecord_map_record]
  record_ofRecord r := by
    obtain ⟨name, space, provider, registry, status, versions, created, updated, _⟩ := r
    exact congrArg (fun v => (name, space, provider, registry, status, v, created, updated, ()))
      (Recorded.map_record_map_ofRecord versions)
  type := "registry-modules"

/-! ### Versions of modules -/

/-- One version of a module. -/
structure ModuleVersion where
  version : String
deriving DecidableEq, Repr

instance : Recorded ModuleVersion where
  fields := .ofList [("version", .required, .text)]
  record v := (v.version, ())
  ofRecord := fun (version, ()) => ⟨version⟩
  ofRecord_record _ := rfl
  record_ofRecord _ := rfl

/-- The versions of one module. -/
structure ModuleVersions where
  source : String
  versions : List ModuleVersion
deriving DecidableEq, Repr

instance : Recorded ModuleVersions where
  fields := .ofList
    [("source", .defaulted, .text),
     ("versions", .defaulted, .list (.record (Recorded.fields ModuleVersion)))]
  record m := (m.source, m.versions.map Recorded.record, ())
  ofRecord := fun (source, versions, ()) => ⟨source, versions.map Recorded.ofRecord⟩
  ofRecord_record m := by simp only [Recorded.map_ofRecord_map_record]
  record_ofRecord := fun (source, versions, ()) =>
    congrArg (fun v => (source, v, ())) (Recorded.map_record_map_ofRecord versions)

/-- The modules that a registry lists, with their versions. -/
structure ModuleVersionList where
  modules : List ModuleVersions
deriving DecidableEq, Repr

instance : Recorded ModuleVersionList where
  fields := .ofList [("modules", .defaulted, .list (.record (Recorded.fields ModuleVersions)))]
  record l := (l.modules.map Recorded.record, ())
  ofRecord := fun (modules, ()) => ⟨modules.map Recorded.ofRecord⟩
  ofRecord_record l := by simp only [Recorded.map_ofRecord_map_record]
  record_ofRecord := fun (modules, ()) =>
    congrArg (fun m => (m, ())) (Recorded.map_record_map_ofRecord modules)

/-- Every version that is listed, in order. -/
def ModuleVersionList.versions (l : ModuleVersionList) : List String :=
  l.modules.flatMap fun m => m.versions.map (·.version)

end TerraformCloud
