/-
  TerraformCloud/Service/Registry.lean
  ====================================
  **Operations on the providers and modules of a registry.**
-/
import TerraformCloud.Service.Organizations

namespace TerraformCloud

/-! ### Providers -/

namespace RegistryProviders

structure ListOptions where
  page : PageRequest := {}
  registryName : Option RegistryName := none
  search : Option String := none
deriving Repr

instance : Paginated ListOptions where
  page o := o.page
  withPage o p := { o with page := p }

def ListOptions.params (o : ListOptions) : Json.Value :=
  .object (o.page.members ++
    [textMember "filter[registry_name]" (o.registryName.map RegistryName.spelling),
     textMember "q" o.search])

/-- A provider to be created. -/
structure NewProvider where
  name : String
  space : String
  registryName : Option RegistryName := none
deriving Repr

/-- Name and namespace are sent even when they are empty. -/
def NewProvider.draft (p : NewProvider) : Draft :=
  .ofAttributes (Attributes.type RegistryProvider)
    [("name", .string p.name), ("namespace", .string p.space),
     textMember "registry-name" (p.registryName.map RegistryName.spelling)]

def NewProvider.check (p : NewProvider) : Except ApiError Unit := do
  require .requiredName (isPresent (some p.name))
  require .invalidName (isIdentifier p.name)
  require .invalidNamespace (isIdentifier p.space)
  require .requiredRegistryName p.registryName.isSome

/-- What identifies a provider. -/
structure Id where
  organization : String
  registryName : RegistryName
  space : String
  name : String
deriving Repr

inductive Operation where
  | list (organization : String) (options : ListOptions)
  | create (organization : String) (provider : NewProvider)
  | read (id : Id)
  | delete (id : Id)
deriving Repr

def listPath (organization : String) : Except ApiError (List String) := do
  return (← Organizations.path organization) ++ ["registry-providers"]

def Id.path (id : Id) : Except ApiError (List String) := do
  let path ← listPath id.organization
  require .invalidNamespace (isIdentifier id.space)
  require .invalidProviderName (isIdentifier id.name)
  return path ++ [id.registryName.spelling, id.space, id.name]

def Operation.call : Operation → Except ApiError Call
  | list organization options => return .select (← listPath organization) options.params
  | create organization provider => do
    let path ← listPath organization
    provider.check
    Call.resource .post path provider.draft
  | read id => return .get (← id.path)
  | delete id => return .bare .delete (← id.path)

def Operation.answer : Operation → Answer
  | list _ _ => .page .registryProvider
  | create _ _ | read _ => .resource .registryProvider
  | delete _ => .nothing

end RegistryProviders

/-! ### Modules -/

namespace RegistryModules

/-- What identifies a module. -/
structure Id where
  organization : String
  registryName : RegistryName
  space : String
  name : String
  provider : String
deriving Repr

/-- Every part of the identity has to be an identifier. -/
def Id.check (id : Id) : Except ApiError Unit := do
  require .invalidOrg (isIdentifier id.organization)
  require .invalidNamespace (isIdentifier id.space)
  require .invalidModuleName (isIdentifier id.name)
  require .invalidProviderName (isIdentifier id.provider)

inductive Operation where
  | read (id : Id)
  | listVersions (id : Id)
deriving Repr

def Operation.call : Operation → Except ApiError Call
  | read id => do
    id.check
    return .get ["organizations", id.organization, "registry-modules", id.registryName.spelling,
      id.space, id.name, id.provider]
  | listVersions id => do
    id.check
    return { method := .get, base := .registry,
             segments := ["v1", "modules", id.space, id.name, id.provider, "versions"],
             accept := some BodyFormat.json.mediaType }

def Operation.answer : Operation → Answer
  | read _ => .resource .registryModule
  | listVersions _ => .versions

end RegistryModules
end TerraformCloud
