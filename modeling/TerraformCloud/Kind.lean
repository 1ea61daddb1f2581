/-
  TerraformCloud/Kind.lean
  ========================
  **The kinds of resources.**
-/
import TerraformCloud.Kind.Organization
import TerraformCloud.Kind.Registry
import TerraformCloud.Kind.Run
import TerraformCloud.Kind.Workspace

namespace TerraformCloud

/-- A kind of resource. -/
inductive Kind where
  | organization | workspace | project | run | plan | apply | variable_ | variableSet
  | notification | policy | registryProvider | registryModule
deriving DecidableEq, Repr

namespace Kind

def all : List Kind :=
  [organization, workspace, project, run, plan, apply, variable_, variableSet, notification,
   policy, registryProvider, registryModule]

/-- The attributes of the resources of a kind. -/
@[reducible] def Attributes : Kind → Type
  | organization => Organization
  | workspace => Workspace
  | project => Project
  | run => Run
  | plan => Plan
  | apply => Apply
  | variable_ => Variable
  | variableSet => VariableSet
  | notification => NotificationConfiguration
  | policy => Policy
  | registryProvider => RegistryProvider
  | registryModule => RegistryModule

instance : (k : Kind) → TerraformCloud.Attributes k.Attributes
  | organization => inferInstanceAs (TerraformCloud.Attributes Organization)
  | workspace => inferInstanceAs (TerraformCloud.Attributes Workspace)
  | project => inferInstanceAs (TerraformCloud.Attributes Project)
  | run => inferInstanceAs (TerraformCloud.Attributes Run)
  | plan => inferInstanceAs (TerraformCloud.Attributes Plan)
  | apply => inferInstanceAs (TerraformCloud.Attributes Apply)
  | variable_ => inferInstanceAs (TerraformCloud.Attributes Variable)
  | variableSet => inferInstanceAs (TerraformCloud.Attributes VariableSet)
  | notification => inferInstanceAs (TerraformCloud.Attributes NotificationConfiguration)
  | policy => inferInstanceAs (TerraformCloud.Attributes Policy)
  | registryProvider => inferInstanceAs (TerraformCloud.Attributes RegistryProvider)
  | registryModule => inferInstanceAs (TerraformCloud.Attributes RegistryModule)

end Kind
end TerraformCloud
