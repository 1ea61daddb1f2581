/-
  TerraformCloud/Proofs/Service/Routes.lean
  =========================================
  **The paths of all operations.**

  A route is the path of an operation as the service documents it: words that are always
  the same, and places where an identifier stands.  The definitions below are the table of
  all routes, and every call that an operation stands for follows its route
  (`Operation.follows`): its segments are those of the route, and all identifiers in them
  were checked.
-/
import TerraformCloud.Service

namespace TerraformCloud

/-! ## 1. Routes -/

/-- A part of a path. -/
inductive Part where
  | word (text : String)
  | identifier (text : String)
deriving DecidableEq, Repr

namespace Part

def text : Part → String
  | word w => w
  | identifier s => s

/-- What all calls of one operation have in common: the word, or that an identifier
    stands here. -/
def shape : Part → Option String
  | word w => some w
  | identifier _ => none

def identifier? : Part → Option String
  | word _ => none
  | identifier s => some s

/-- An identifier was checked, and a word would pass the check and is no dot. -/
def Valid : Part → Prop
  | word w => isIdentifier w = true ∧ w ≠ "." ∧ w ≠ ".."
  | identifier s => isIdentifier s = true

instance : (p : Part) → Decidable p.Valid
  | word w => inferInstanceAs (Decidable (isIdentifier w = true ∧ w ≠ "." ∧ w ≠ ".."))
  | identifier s => inferInstanceAs (Decidable (isIdentifier s = true))

theorem Valid.isIdentifier {p : Part} (h : p.Valid) :
    TerraformCloud.isIdentifier p.text = true := by
  cases p with
  | word w => exact h.1
  | identifier s => exact h

/-- Parts of one shape and one text are the same part. -/
theorem eq_of_shape {p q : Part} (hshape : p.shape = q.shape) (htext : p.text = q.text) :
    p = q := by
  cases p <;> cases q <;> cases hshape <;> cases htext <;> rfl

end Part

/-- The parts of a path are valid. -/
def ValidParts (parts : List Part) : Prop := ∀ p ∈ parts, p.Valid

instance (parts : List Part) : Decidable (ValidParts parts) :=
  inferInstanceAs (Decidable (∀ p ∈ parts, p.Valid))

theorem ValidParts.append {as bs : List Part} (ha : ValidParts as) (hb : ValidParts bs) :
    ValidParts (as ++ bs) :=
  List.forall_mem_append.2 ⟨ha, hb⟩

theorem ValidParts.cons {p : Part} {parts : List Part} (hp : p.Valid) (h : ValidParts parts) :
    ValidParts (p :: parts) :=
  List.forall_mem_cons.2 ⟨hp, h⟩

theorem ValidParts.nil : ValidParts [] := List.forall_mem_nil _

theorem ValidParts.identifiers {parts : List Part} (h : ValidParts parts) :
    ∀ s ∈ parts.map Part.text, isIdentifier s = true := by
  intro s hs
  obtain ⟨p, hp, rfl⟩ := List.mem_map.1 hs
  exact (h p hp).isIdentifier

/-! ## 2. The table -/

/-- One thing of a kind, by its identifier. -/
def one (kind id : String) : List Part := [.word kind, .identifier id]

/-- Words behind a path. -/
def words (texts : List String) : List Part := texts.map .word

def Organizations.Operation.parts : Organizations.Operation → List Part
  | list _ | create _ => words ["organizations"]
  | read org | update org _ | delete org => one "organizations" org

def Projects.Operation.parts : Projects.Operation → List Part
  | list org _ | create org _ => one "organizations" org ++ words ["projects"]
  | read id | update id _ | delete id => one "projects" id

def Workspaces.Operation.parts : Workspaces.Operation → List Part
  | list org _ | create org _ => one "organizations" org ++ words ["workspaces"]
  | read org name _ | update org name _ | delete org name =>
    one "organizations" org ++ one "workspaces" name
  | readById id | updateById id _ | deleteById id => one "workspaces" id
  | lock id _ => one "workspaces" id ++ words ["actions", "lock"]
  | unlock id => one "workspaces" id ++ words ["actions", "unlock"]
  | forceUnlock id => one "workspaces" id ++ words ["actions", "force-unlock"]

def Runs.Operation.parts : Runs.Operation → List Part
  | list workspaceId _ => one "workspaces" workspaceId ++ words ["runs"]
  | create _ => words ["runs"]
  | read id _ => one "runs" id
  | act id action _ => one "runs" id ++ words ["actions", action.segment]

def Phase.parts : Phase → String → List Part
  | plan, id => one "plans" id
  | apply, id => one "applies" id

def Variables.Operation.parts : Variables.Operation → List Part
  | list workspaceId _ | create workspaceId _ => one "workspaces" workspaceId ++ words ["vars"]
  | read workspaceId id | update workspaceId id _ | delete workspaceId id =>
    one "workspaces" workspaceId ++ one "vars" id

def VariableSets.Operation.parts : VariableSets.Operation → List Part
  | list org _ | create org _ => one "organizations" org ++ words ["varsets"]
  | read id _ | update id _ | delete id => one "varsets" id
  | applyToWorkspaces id _ | removeFromWorkspaces id _ =>
    one "varsets" id ++ words ["relationships", "workspaces"]

def Notifications.Operation.parts : Notifications.Operation → List Part
  | list workspaceId _ | create workspaceId _ =>
    one "workspaces" workspaceId ++ words ["notification-configurations"]
  | read id | update id _ | delete id => one "notification-configurations" id
  | verify id => one "notification-configurations" id ++ words ["actions", "verify"]

def Policies.Operation.parts : Policies.Operation → List Part
  | list org _ | create org _ => one "organizations" org ++ words ["policies"]
  | read id | update id _ | delete id => one "policies" id

def RegistryProviders.Operation.parts : RegistryProviders.Operation → List Part
  | list org _ | create org _ => one "organizations" org ++ words ["registry-providers"]
  | read id | delete id =>
    one "organizations" id.organization ++ words ["registry-providers", id.registryName.spelling] ++
      [.identifier id.space, .identifier id.name]

/-- The versions of a module are listed by the module registry, which knows it without
    the organization. -/
def RegistryModules.Operation.parts : RegistryModules.Operation → List Part
  | read id =>
    one "organizations" id.organization ++ words ["registry-modules", id.registryName.spelling] ++
      [.identifier id.space, .identifier id.name, .identifier id.provider]
  | listVersions id =>
    words ["v1", "modules"] ++
      [.identifier id.space, .identifier id.name, .identifier id.provider] ++ words ["versions"]

namespace Operation

/-- The route of an operation below its interface. -/
def parts : Operation → List Part
  | organizations op => op.parts
  | projects op => op.parts
  | workspaces op => op.parts
  | runs op => op.parts
  | phase which id => which.parts id
  | workspaceVariables op => op.parts
  | variableSets op => op.parts
  | notifications op => op.parts
  | policies op => op.parts
  | registryProviders op => op.parts
  | registryModules op => op.parts

/-- The interface that an operation uses. -/
def base : Operation → Base
  | registryModules (.listVersions _) => .registry
  | _ => .api

/-- The identifiers in the path of an operation. -/
def identifiers (op : Operation) : List String := op.parts.filterMap Part.identifier?

end Operation

/-! ## 3. How paths are built -/

theorem ok_of_bind {ε α β : Type} {x : Except ε α} {f : α → Except ε β} {b : β}
    (h : (x >>= f) = .ok b) : ∃ a, x = .ok a ∧ f a = .ok b := by
  cases x with
  | error e => cases h
  | ok a => exact ⟨a, rfl, h⟩

theorem of_require {cause : Rejection} {condition : Bool} {u : Unit}
    (h : require cause condition = .ok u) : condition = true := by
  cases condition with
  | false => cases h
  | true => rfl

/-- A path that is built, if it is, from valid parts. -/
def BuiltFrom (parts : List Part) (path : Except ApiError (List String)) : Prop :=
  ∀ p, path = .ok p → p = parts.map Part.text ∧ ValidParts parts

theorem builtFrom_one {cause : Rejection} {kind : String} (id : String)
    (hkind : (Part.word kind).Valid) :
    BuiltFrom (one kind id) (do require cause (isIdentifier id); return [kind, id]) := by
  intro p hp
  obtain ⟨u, hu, hp⟩ := ok_of_bind hp
  cases hp
  exact ⟨rfl, .cons hkind (.cons (of_require hu) .nil)⟩

theorem map_text_words (texts : List String) : (words texts).map Part.text = texts := by
  rw [words, List.map_map]
  exact List.map_id texts

theorem BuiltFrom.withWords {parts : List Part} {path : Except ApiError (List String)}
    (h : BuiltFrom parts path) (texts : List String) (hwords : ValidParts (words texts)) :
    BuiltFrom (parts ++ words texts) (do return (← path) ++ texts) := by
  intro p hp
  obtain ⟨front, hfront, hp⟩ := ok_of_bind hp
  cases hp
  obtain ⟨rfl, hvalid⟩ := h front hfront
  refine ⟨?_, hvalid.append hwords⟩
  rw [List.map_append, map_text_words]

theorem BuiltFrom.withIdentifier {parts : List Part} {path : Except ApiError (List String)}
    (h : BuiltFrom parts path) {cause : Rejection} (id : String) :
    BuiltFrom (parts ++ [.identifier id])
      (do let p ← path; require cause (isIdentifier id); return p ++ [id]) := by
  intro p hp
  obtain ⟨front, hfront, hp⟩ := ok_of_bind hp
  obtain ⟨u, hu, hp⟩ := ok_of_bind hp
  cases hp
  obtain ⟨rfl, hvalid⟩ := h front hfront
  exact ⟨by rw [List.map_append]; rfl, hvalid.append (.cons (of_require hu) .nil)⟩

theorem builtFrom_organization (org : String) :
    BuiltFrom (one "organizations" org) (Organizations.path org) :=
  builtFrom_one org (by decide)

theorem builtFrom_workspace (id : String) :
    BuiltFrom (one "workspaces" id) (Workspaces.idPath id) :=
  builtFrom_one id (by decide)

theorem builtFrom_workspaceAction (id : String) {action : String}
    (haction : ValidParts (words ["actions", action])) :
    BuiltFrom (one "workspaces" id ++ words ["actions", action])
      (Workspaces.actionPath id action) :=
  (builtFrom_workspace id).withWords _ haction

theorem builtFrom_namedWorkspace (org name : String) :
    BuiltFrom (one "organizations" org ++ one "workspaces" name) (Workspaces.namedPath org name) :=
  ((builtFrom_organization org).withWords ["workspaces"] (by decide)).withIdentifier name

theorem builtFrom_variable (workspaceId id : String) :
    BuiltFrom (one "workspaces" workspaceId ++ one "vars" id) (Variables.path workspaceId id) :=
  ((builtFrom_workspace workspaceId).withWords ["vars"] (by decide)).withIdentifier id

theorem valid_registryName (name : RegistryName) : (Part.word name.spelling).Valid := by
  cases name <;> decide

theorem builtFrom_registryProvider (id : RegistryProviders.Id) :
    BuiltFrom (RegistryProviders.Operation.read id).parts id.path := by
  intro p hp
  obtain ⟨front, hfront, hp⟩ := ok_of_bind hp
  obtain ⟨u, hspace, hp⟩ := ok_of_bind hp
  obtain ⟨u, hname, hp⟩ := ok_of_bind hp
  cases hp
  obtain ⟨rfl, hvalid⟩ := ((builtFrom_organization id.organization).withWords ["registry-providers"]
    (by decide)) front hfront
  refine ⟨rfl, hvalid.append (.cons (valid_registryName id.registryName) ?_)⟩
  exact .cons (of_require hspace) (.cons (of_require hname) .nil)

/-! ## 4. How calls are made -/

/-- A call, if it is made, goes to an interface along given segments. -/
def Keeps (base : Base) (segments : List String) (call : Except ApiError Call) : Prop :=
  ∀ made, call = .ok made → made.base = base ∧ made.segments = segments

theorem keeps_pure (made : Call) : Keeps made.base made.segments (pure made) := by
  intro _ h
  cases h
  exact ⟨rfl, rfl⟩

theorem Keeps.after {base : Base} {segments : List String} {α : Type} {check : Except ApiError α}
    {call : α → Except ApiError Call} (h : ∀ a, Keeps base segments (call a)) :
    Keeps base segments (check >>= call) := by
  intro made hmade
  obtain ⟨a, -, hmade⟩ := ok_of_bind hmade
  exact h a made hmade

theorem keeps_resource (method : Http.Method) (segments : List String) (draft : Draft) :
    Keeps .api segments (Call.resource method segments draft) := by
  intro made hmade
  cases hbody : Body.resource draft with
  | error e => rw [Call.resource, hbody] at hmade; cases hmade
  | ok body => rw [Call.resource, hbody] at hmade; cases hmade; exact ⟨rfl, rfl⟩

/-- A call, if it is made, goes to an interface along valid parts. -/
def Follows (base : Base) (parts : List Part) (call : Except ApiError Call) : Prop :=
  ∀ made, call = .ok made →
    made.base = base ∧ made.segments = parts.map Part.text ∧ ValidParts parts

theorem BuiltFrom.follows {base : Base} {parts : List Part} {path : Except ApiError (List String)}
    (h : BuiltFrom parts path) {call : List String → Except ApiError Call}
    (keeps : ∀ p, Keeps base p (call p)) : Follows base parts (path >>= call) := by
  intro made hmade
  obtain ⟨p, hp, hmade⟩ := ok_of_bind hmade
  obtain ⟨hbase, hsegments⟩ := keeps p made hmade
  obtain ⟨rfl, hvalid⟩ := h p hp
  exact ⟨hbase, hsegments, hvalid⟩

theorem BuiltFrom.followsWords {base : Base} {parts : List Part}
    {path : Except ApiError (List String)} (h : BuiltFrom parts path) {texts : List String}
    (hwords : ValidParts (words texts)) {call : List String → Except ApiError Call}
    (keeps : ∀ p, Keeps base (p ++ texts) (call p)) :
    Follows base (parts ++ words texts) (path >>= call) := by
  intro made hmade
  obtain ⟨p, hp, hmade⟩ := ok_of_bind hmade
  obtain ⟨hbase, hsegments⟩ := keeps p made hmade
  obtain ⟨rfl, hvalid⟩ := h p hp
  refine ⟨hbase, ?_, hvalid.append hwords⟩
  rw [hsegments, List.map_append, map_text_words]

theorem Keeps.follows {base : Base} {parts : List Part} {call : Except ApiError Call}
    (h : Keeps base (parts.map Part.text) call) (hvalid : ValidParts parts) :
    Follows base parts call := by
  intro made hmade
  obtain ⟨hbase, hsegments⟩ := h made hmade
  exact ⟨hbase, hsegments, hvalid⟩

/-! ## 5. All operations -/

theorem Organizations.Operation.follows (op : Organizations.Operation) :
    Follows .api op.parts op.call := by
  have hwords : ValidParts (words ["organizations"]) := by decide
  cases op with
  | list options => exact (keeps_pure _).follows hwords
  | create settings => exact (Keeps.after fun _ => keeps_resource _ _ _).follows hwords
  | read org => exact (builtFrom_organization org).follows fun _ => keeps_pure _
  | update org settings => exact (builtFrom_organization org).follows fun _ => keeps_resource _ _ _
  | delete org => exact (builtFrom_organization org).follows fun _ => keeps_pure _

theorem Projects.Operation.follows (op : Projects.Operation) : Follows .api op.parts op.call := by
  have hlist : ∀ org, BuiltFrom (one "organizations" org ++ words ["projects"]) (listPath org) :=
    fun org => (builtFrom_organization org).withWords _ (by decide)
  have hone : ∀ id, BuiltFrom (one "projects" id) (path id) :=
    fun id => builtFrom_one id (by decide)
  cases op with
  | list org options => exact (hlist org).follows fun _ => keeps_pure _
  | create org project => exact (hlist org).follows fun _ => .after fun _ => keeps_resource _ _ _
  | read id => exact (hone id).follows fun _ => keeps_pure _
  | update id changes => exact (hone id).follows fun _ => .after fun _ => keeps_resource _ _ _
  | delete id => exact (hone id).follows fun _ => keeps_pure _

theorem Workspaces.Operation.follows (op : Workspaces.Operation) :
    Follows .api op.parts op.call := by
  have hlist : ∀ org, BuiltFrom (one "organizations" org ++ words ["workspaces"]) (listPath org) :=
    fun org => (builtFrom_organization org).withWords _ (by decide)
  cases op with
  | list org options => exact (hlist org).follows fun _ => keeps_pure _
  | create org workspace => exact (hlist org).follows fun _ => .after fun _ => keeps_resource _ _ _
  | read org name included =>
    exact (builtFrom_namedWorkspace org name).follows fun _ => keeps_pure _
  | readById id => exact (builtFrom_workspace id).follows fun _ => keeps_pure _
  | update org name changes =>
    exact (builtFrom_namedWorkspace org name).follows fun _ => .after fun _ => keeps_resource _ _ _
  | updateById id changes =>
    exact (builtFrom_workspace id).follows fun _ => .after fun _ => keeps_resource _ _ _
  | delete org name => exact (builtFrom_namedWorkspace org name).follows fun _ => keeps_pure _
  | deleteById id => exact (builtFrom_workspace id).follows fun _ => keeps_pure _
  | lock id reason =>
    exact (builtFrom_workspaceAction id (by decide)).follows fun _ => keeps_pure _
  | unlock id =>
    exact (builtFrom_workspaceAction id (by decide)).follows fun _ => keeps_pure _
  | forceUnlock id =>
    exact (builtFrom_workspaceAction id (by decide)).follows fun _ => keeps_pure _

theorem Runs.Operation.follows (op : Runs.Operation) : Follows .api op.parts op.call := by
  have hone : ∀ id, BuiltFrom (one "runs" id) (path id) :=
    fun id => builtFrom_one id (by decide)
  cases op with
  | list workspaceId options =>
    exact (builtFrom_workspace workspaceId).followsWords (by decide) fun _ => keeps_pure _
  | create run =>
    have hwords : ValidParts (words ["runs"]) := by decide
    exact (Keeps.after fun _ => keeps_resource _ _ _).follows hwords
  | read id included => exact (hone id).follows fun _ => keeps_pure _
  | act id action comment =>
    have hwords : ValidParts (words ["actions", action.segment]) := by cases action <;> decide
    exact (hone id).followsWords hwords fun _ => keeps_pure _

theorem Phase.follows (phase : Phase) (id : String) :
    Follows .api (phase.parts id) (phase.call id) := by
  have hone : BuiltFrom (phase.parts id) (phase.path id) := by
    cases phase <;> exact builtFrom_one id (by decide)
  exact hone.follows fun _ => keeps_pure _

theorem Variables.Operation.follows (op : Variables.Operation) : Follows .api op.parts op.call := by
  have hlist : ∀ id, BuiltFrom (one "workspaces" id ++ words ["vars"]) (listPath id) :=
    fun id => (builtFrom_workspace id).withWords _ (by decide)
  cases op with
  | list workspaceId page => exact (hlist workspaceId).follows fun _ => keeps_pure _
  | create workspaceId settings =>
    exact (hlist workspaceId).follows fun _ => .after fun _ => keeps_resource _ _ _
  | read workspaceId id => exact (builtFrom_variable workspaceId id).follows fun _ => keeps_pure _
  | update workspaceId id settings =>
    exact (builtFrom_variable workspaceId id).follows fun _ => keeps_resource _ _ _
  | delete workspaceId id => exact (builtFrom_variable workspaceId id).follows fun _ => keeps_pure _

theorem VariableSets.Operation.follows (op : VariableSets.Operation) :
    Follows .api op.parts op.call := by
  have hlist : ∀ org, BuiltFrom (one "organizations" org ++ words ["varsets"]) (listPath org) :=
    fun org => (builtFrom_organization org).withWords _ (by decide)
  have hone : ∀ id, BuiltFrom (one "varsets" id) (path id) :=
    fun id => builtFrom_one id (by decide)
  cases op with
  | list org options => exact (hlist org).follows fun _ => keeps_pure _
  | create org settings => exact (hlist org).follows fun _ => .after fun _ => keeps_resource _ _ _
  | read id included => exact (hone id).follows fun _ => keeps_pure _
  | update id settings => exact (hone id).follows fun _ => keeps_resource _ _ _
  | delete id => exact (hone id).follows fun _ => keeps_pure _
  | applyToWorkspaces id workspaceIds =>
    exact (hone id).followsWords (by decide) fun _ =>
      .after fun _ => .after fun _ => .after fun _ => keeps_pure _
  | removeFromWorkspaces id workspaceIds =>
    exact (hone id).followsWords (by decide) fun _ =>
      .after fun _ => .after fun _ => .after fun _ => keeps_pure _

theorem Notifications.Operation.follows (op : Notifications.Operation) :
    Follows .api op.parts op.call := by
  have hlist : ∀ id, BuiltFrom (one "workspaces" id ++ words ["notification-configurations"])
      (listPath id) :=
    fun id => (builtFrom_workspace id).withWords _ (by decide)
  have hone : ∀ id, BuiltFrom (one "notification-configurations" id) (path id) :=
    fun id => builtFrom_one id (by decide)
  cases op with
  | list workspaceId page => exact (hlist workspaceId).follows fun _ => keeps_pure _
  | create workspaceId configuration =>
    exact (hlist workspaceId).follows fun _ => .after fun _ => keeps_resource _ _ _
  | read id => exact (hone id).follows fun _ => keeps_pure _
  | update id changes => exact (hone id).follows fun _ => keeps_resource _ _ _
  | delete id => exact (hone id).follows fun _ => keeps_pure _
  | verify id => exact (hone id).followsWords (by decide) fun _ => keeps_pure _

theorem Policies.Operation.follows (op : Policies.Operation) : Follows .api op.parts op.call := by
  have hlist : ∀ org, BuiltFrom (one "organizations" org ++ words ["policies"]) (listPath org) :=
    fun org => (builtFrom_organization org).withWords _ (by decide)
  have hone : ∀ id, BuiltFrom (one "policies" id) (path id) :=
    fun id => builtFrom_one id (by decide)
  cases op with
  | list org options => exact (hlist org).follows fun _ => keeps_pure _
  | create org policy => exact (hlist org).follows fun _ => .after fun _ => keeps_resource _ _ _
  | read id => exact (hone id).follows fun _ => keeps_pure _
  | update id changes => exact (hone id).follows fun _ => keeps_resource _ _ _
  | delete id => exact (hone id).follows fun _ => keeps_pure _

theorem RegistryProviders.Operation.follows (op : RegistryProviders.Operation) :
    Follows .api op.parts op.call := by
  have hlist : ∀ org, BuiltFrom (one "organizations" org ++ words ["registry-providers"])
      (listPath org) :=
    fun org => (builtFrom_organization org).withWords _ (by decide)
  cases op with
  | list org options => exact (hlist org).follows fun _ => keeps_pure _
  | create org provider => exact (hlist org).follows fun _ => .after fun _ => keeps_resource _ _ _
  | read id => exact (builtFrom_registryProvider id).follows fun _ => keeps_pure _
  | delete id => exact (builtFrom_registryProvider id).follows fun _ => keeps_pure _

theorem RegistryModules.Operation.follows (op : RegistryModules.Operation) :
    Follows (TerraformCloud.Operation.registryModules op).base op.parts op.call := by
  have hcheck : ∀ {id : Id} {u : Unit}, id.check = .ok u → isIdentifier id.organization = true ∧
      ValidParts [.identifier id.space, .identifier id.name, .identifier id.provider] := by
    intro id u h
    obtain ⟨_, horg, h⟩ := ok_of_bind h
    obtain ⟨_, hspace, h⟩ := ok_of_bind h
    obtain ⟨_, hname, h⟩ := ok_of_bind h
    exact ⟨of_require horg,
      .cons (of_require hspace) (.cons (of_require hname) (.cons (of_require h) .nil))⟩
  cases op with
  | read id =>
    intro made hmade
    obtain ⟨u, hu, hmade⟩ := ok_of_bind hmade
    cases hmade
    obtain ⟨horg, hids⟩ := hcheck hu
    have hone : ValidParts (one "organizations" id.organization) :=
      .cons (by decide) (.cons horg .nil)
    have hwords : ValidParts (words ["registry-modules", id.registryName.spelling]) :=
      .cons (by decide) (.cons (valid_registryName id.registryName) .nil)
    exact ⟨rfl, rfl, (hone.append hwords).append hids⟩
  | listVersions id =>
    intro made hmade
    obtain ⟨u, hu, hmade⟩ := ok_of_bind hmade
    cases hmade
    have hfront : ValidParts (words ["v1", "modules"]) := by decide
    have hback : ValidParts (words ["versions"]) := by decide
    exact ⟨rfl, rfl, (hfront.append (hcheck hu).2).append hback⟩

/-- **Every call follows its route**, and the identifiers in it were checked. -/
theorem Operation.follows (op : Operation) : Follows op.base op.parts op.call := by
  cases op with
  | organizations op => exact op.follows
  | projects op => exact op.follows
  | workspaces op => exact op.follows
  | runs op => exact op.follows
  | phase which id => exact which.follows id
  | workspaceVariables op => exact op.follows
  | variableSets op => exact op.follows
  | notifications op => exact op.follows
  | policies op => exact op.follows
  | registryProviders op => exact op.follows
  | registryModules op => exact op.follows

/-- No path is empty. -/
theorem Operation.parts_ne_nil (op : Operation) : op.parts ≠ [] := by
  cases op with
  | phase which id => cases which <;> exact List.cons_ne_nil _ _
  | _ op => cases op <;> exact List.cons_ne_nil _ _

end TerraformCloud
