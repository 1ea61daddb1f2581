/-
  TerraformCloud/Proofs/Service/Demands.lean
  ==========================================
  **What operations ask of their arguments, and what happens otherwise.**

  An operation asks that certain arguments are identifiers, those in its path from the
  outermost to the innermost, and then certain things of its options.  The definitions
  below are the table of all these demands, in this order.  Every operation heeds its demands
  (`Operation.heeds`): if one is not met, the first such is the cause of its refusal, and
  if all are met, it stands for a call.
-/
import TerraformCloud.Proofs.Service.Routes

namespace TerraformCloud

/-! ## 1. Demands -/

/-- A letter, a digit or one of three marks, all of them ASCII. -/
def IsSafeChar (c : Char) : Prop :=
  ('a'.toNat ≤ c.toNat ∧ c.toNat ≤ 'z'.toNat) ∨ ('A'.toNat ≤ c.toNat ∧ c.toNat ≤ 'Z'.toNat) ∨
    ('0'.toNat ≤ c.toNat ∧ c.toNat ≤ '9'.toNat) ∨ c = '-' ∨ c = '_' ∨ c = '.'

instance : DecidablePred IsSafeChar := fun _ => inferInstanceAs (Decidable (_ ∨ _))

/-- A text that can name something in a path: it is not empty, and all its characters are safe. -/
def IsSafe (text : String) : Prop := text ≠ "" ∧ ∀ c ∈ text.toList, IsSafeChar c

/-- It is enough to look at the characters of the text. -/
instance : DecidablePred IsSafe := fun text =>
  @instDecidableAnd _ _ inferInstance (List.decidableBAll IsSafeChar text.toList)

theorem isIdentifierChar_iff {c : Char} : isIdentifierChar c = true ↔ IsSafeChar c := by
  have hupper : c.isUpper = true ↔ 'A'.toNat ≤ c.toNat ∧ c.toNat ≤ 'Z'.toNat := decide_eq_true_iff
  have hlower : c.isLower = true ↔ 'a'.toNat ≤ c.toNat ∧ c.toNat ≤ 'z'.toNat :=
    Bool.and_eq_true_iff.trans (and_congr decide_eq_true_iff decide_eq_true_iff)
  have hdigit : c.isDigit = true ↔ '0'.toNat ≤ c.toNat ∧ c.toNat ≤ '9'.toNat :=
    Bool.and_eq_true_iff.trans (and_congr decide_eq_true_iff decide_eq_true_iff)
  have hkinds : isIdentifierChar c =
      (c.isUpper || c.isLower || c.isDigit || c = '-' || c = '_' || c = '.') := rfl
  rw [hkinds, IsSafeChar]
  simp only [Bool.or_eq_true, decide_eq_true_eq, hupper, hlower, hdigit, or_assoc]
  exact or_left_comm

theorem isIdentifier_iff {text : String} : isIdentifier text = true ↔ IsSafe text := by
  simp [isIdentifier, IsSafe, isIdentifierChar_iff]

/-- Something that is asked of the arguments of an operation, and the cause of a refusal. -/
structure Demand where
  cause : Rejection
  met : Bool
deriving DecidableEq, Repr

namespace Demand

/-- A text has to name something in a path. -/
def safe (cause : Rejection) (text : String) : Demand := ⟨cause, decide (IsSafe text)⟩

/-- A text has to be there, and not to be empty. -/
def filled (cause : Rejection) (text : Option String) : Demand := ⟨cause, decide (text.getD "" ≠ "")⟩

/-- Something has to be there. -/
def given {α : Type} (cause : Rejection) (thing : Option α) : Demand := ⟨cause, thing.isSome⟩

end Demand

/-- The cause of the first demand that is not met. -/
def offence? (demands : List Demand) : Option Rejection := (demands.find? fun d => !d.met).map (·.cause)

/-! ## 2. The table -/

/-- The arguments of an operation that have to be identifiers, the outermost first, each with
    the cause of a refusal. -/
def Organizations.Operation.arguments : Organizations.Operation → List (Rejection × String)
  | list _ | create _ => []
  | read org | update org _ | delete org => [(.invalidOrg, org)]

def Projects.Operation.arguments : Projects.Operation → List (Rejection × String)
  | list org _ | create org _ => [(.invalidOrg, org)]
  | read id | update id _ | delete id => [(.invalidProjectId, id)]

def Workspaces.Operation.arguments : Workspaces.Operation → List (Rejection × String)
  | list org _ | create org _ => [(.invalidOrg, org)]
  | read org name _ | update org name _ | delete org name =>
    [(.invalidOrg, org), (.invalidWorkspaceValue, name)]
  | readById id | updateById id _ | deleteById id | lock id _ | unlock id | forceUnlock id =>
    [(.invalidWorkspaceId, id)]

def Runs.Operation.arguments : Runs.Operation → List (Rejection × String)
  | list workspaceId _ => [(.invalidWorkspaceId, workspaceId)]
  | create _ => []
  | read id _ | act id _ _ => [(.invalidRunId, id)]

def Phase.arguments : Phase → String → List (Rejection × String)
  | plan, id => [(.invalidPlanId, id)]
  | apply, id => [(.invalidApplyId, id)]

def Variables.Operation.arguments : Variables.Operation → List (Rejection × String)
  | list workspaceId _ | create workspaceId _ => [(.invalidWorkspaceId, workspaceId)]
  | read workspaceId id | update workspaceId id _ | delete workspaceId id =>
    [(.invalidWorkspaceId, workspaceId), (.invalidVariableId, id)]

def VariableSets.Operation.arguments : VariableSets.Operation → List (Rejection × String)
  | list org _ | create org _ => [(.invalidOrg, org)]
  | read id _ | update id _ | delete id | applyToWorkspaces id _ | removeFromWorkspaces id _ =>
    [(.invalidVariableSetId, id)]

def Notifications.Operation.arguments : Notifications.Operation → List (Rejection × String)
  | list workspaceId _ | create workspaceId _ => [(.invalidWorkspaceId, workspaceId)]
  | read id | update id _ | delete id | verify id => [(.invalidNotificationConfigId, id)]

def Policies.Operation.arguments : Policies.Operation → List (Rejection × String)
  | list org _ | create org _ => [(.invalidOrg, org)]
  | read id | update id _ | delete id => [(.invalidPolicyId, id)]

def RegistryProviders.Operation.arguments : RegistryProviders.Operation → List (Rejection × String)
  | list org _ | create org _ => [(.invalidOrg, org)]
  | read id | delete id =>
    [(.invalidOrg, id.organization), (.invalidNamespace, id.space), (.invalidProviderName, id.name)]

/-- The organization is asked for even where the path is without it. -/
def RegistryModules.Operation.arguments : RegistryModules.Operation → List (Rejection × String)
  | read id | listVersions id =>
    [(.invalidOrg, id.organization), (.invalidNamespace, id.space), (.invalidModuleName, id.name),
      (.invalidProviderName, id.provider)]

/-- What an operation asks of its options. -/
def Organizations.Operation.wants : Organizations.Operation → List Demand
  | create s => [.filled .requiredName s.name, .safe .invalidName (s.name.getD ""),
      .filled .requiredEmail s.email]
  | _ => []

def Projects.Operation.wants : Projects.Operation → List Demand
  | create _ p => [.filled .requiredName (some p.name)]
  | update _ c => c.name.toList.map fun name => .filled .invalidName (some name)
  | _ => []

def Workspaces.Operation.wants : Workspaces.Operation → List Demand
  | create _ w => [.filled .requiredName w.name, .safe .invalidName (w.name.getD "")]
  | update _ _ c | updateById _ c => c.name.toList.map (.safe .invalidName)
  | _ => []

def Runs.Operation.wants : Runs.Operation → List Demand
  | create run => [.filled .requiredWorkspace run.workspaceId]
  | _ => []

def Variables.Operation.wants : Variables.Operation → List Demand
  | create _ s => [.filled .requiredKey s.key, .given .requiredCategory s.category]
  | _ => []

/-- Of the workspaces there has to be a first one. -/
def VariableSets.Operation.wants : VariableSets.Operation → List Demand
  | create _ s => [.filled .requiredName s.name]
  | applyToWorkspaces _ ids | removeFromWorkspaces _ ids =>
    .given .requiredWorkspacesList ids.head? :: ids.map (.safe .invalidWorkspaceId)
  | _ => []

def Notifications.Operation.wants : Notifications.Operation → List Demand
  | create _ c =>
    [.filled .requiredName c.name, .given .requiredDestinationType c.destinationType,
      .given .requiredEnabled c.enabled] ++
    if c.destinationType.any Destination.requiresUrl then [.filled .requiredUrl c.url] else []
  | _ => []

def Policies.Operation.wants : Policies.Operation → List Demand
  | create _ p => [.filled .requiredName p.name, .safe .invalidName (p.name.getD ""),
      .given .requiredEnforce p.enforcementLevel]
  | _ => []

def RegistryProviders.Operation.wants : RegistryProviders.Operation → List Demand
  | create _ p => [.filled .requiredName (some p.name), .safe .invalidName p.name,
      .safe .invalidNamespace p.space, .given .requiredRegistryName p.registryName]
  | _ => []

namespace Operation

def arguments : Operation → List (Rejection × String)
  | organizations op => op.arguments
  | projects op => op.arguments
  | workspaces op => op.arguments
  | runs op => op.arguments
  | phase which id => which.arguments id
  | workspaceVariables op => op.arguments
  | variableSets op => op.arguments
  | notifications op => op.arguments
  | policies op => op.arguments
  | registryProviders op => op.arguments
  | registryModules op => op.arguments

def wants : Operation → List Demand
  | organizations op => op.wants
  | projects op => op.wants
  | workspaces op => op.wants
  | runs op => op.wants
  | phase _ _ => []
  | workspaceVariables op => op.wants
  | variableSets op => op.wants
  | notifications op => op.wants
  | policies op => op.wants
  | registryProviders op => op.wants
  | registryModules _ => []

/-- All that an operation asks for, in order. -/
def demands (op : Operation) : List Demand := (op.arguments.map fun a => .safe a.1 a.2) ++ op.wants

/-- **The identifiers of a path are asked for from the outermost to the innermost.** -/
theorem identifiers_suffix (op : Operation) : op.identifiers <:+ op.arguments.map (·.2) := by
  cases op with
  | phase which id => cases which <;> exact List.suffix_refl _
  | registryModules op =>
    cases op with
    | read id => exact List.suffix_refl _
    | listVersions id => exact List.suffix_cons _ _
  | _ op => cases op <;> exact List.suffix_refl _

end Operation

/-! ## 3. Heeding -/

theorem offence?_append (demands further : List Demand) :
    offence? (demands ++ further) = (offence? demands).or (offence? further) := by
  rw [offence?, List.find?_append, Option.map_or]
  rfl

theorem offence?_eq_none_iff {demands : List Demand} :
    offence? demands = none ↔ ∀ d ∈ demands, d.met = true := by
  simp [offence?]

theorem exists_of_offence? {demands : List Demand} {cause : Rejection}
    (h : offence? demands = some cause) : ∃ d ∈ demands, d.met = false ∧ d.cause = cause := by
  obtain ⟨d, hfirst, hcause⟩ := Option.map_eq_some_iff.1 h
  have hunmet := List.find?_some (p := fun d : Demand => !d.met) hfirst
  exact ⟨d, List.mem_of_find?_eq_some hfirst, by simpa using hunmet, hcause⟩

/-- An action heeds demands: it fails with the cause of the first one that is not met, and
    succeeds if all are met. -/
def Heeds {α : Type} (demands : List Demand) (action : Except ApiError α) : Prop :=
  match offence? demands with
  | some cause => action = .error (.rejected cause)
  | none => ∃ a, action = .ok a

section Heeding

variable {α β : Type} {demands further : List Demand} {action : Except ApiError α}

theorem heeds_pure (a : α) : Heeds [] (pure a : Except ApiError α) := ⟨a, rfl⟩

theorem Heeds.bind (h : Heeds demands action) {next : α → Except ApiError β}
    (hnext : ∀ a, Heeds further (next a)) : Heeds (demands ++ further) (action >>= next) := by
  unfold Heeds at h ⊢
  rw [offence?_append]
  cases hfirst : offence? demands with
  | some cause =>
    rw [hfirst] at h
    rw [h]
    rfl
  | none =>
    rw [hfirst] at h
    obtain ⟨a, rfl⟩ := h
    exact hnext a

/-- What asks for nothing more changes nothing. -/
theorem Heeds.then (h : Heeds demands action) {next : α → Except ApiError β}
    (hnext : ∀ a, Heeds [] (next a)) : Heeds demands (action >>= next) := by
  have hboth := h.bind hnext
  rwa [List.append_nil] at hboth

/-- Demands with one cause can be checked at once. -/
theorem heeds_require {cause : Rejection} {condition : Bool}
    (hcause : ∀ d ∈ demands, d.cause = cause) (hcondition : condition = demands.all (·.met)) :
    Heeds demands (require cause condition) := by
  unfold Heeds
  cases hfirst : offence? demands with
  | some other =>
    obtain ⟨d, hd, hunmet, rfl⟩ := exists_of_offence? hfirst
    have hfailed : condition = false := hcondition.trans (List.all_eq_false.2 ⟨d, hd, by simp [hunmet]⟩)
    rw [hfailed, hcause d hd]
    rfl
  | none =>
    have hpassed : condition = true := hcondition.trans (List.all_eq_true.2 (offence?_eq_none_iff.1 hfirst))
    rw [hpassed]
    exact ⟨(), rfl⟩

/-! ### Demands of one kind -/

@[simp] theorem Demand.safe_met_iff {cause : Rejection} {text : String} :
    (safe cause text).met = true ↔ IsSafe text :=
  decide_eq_true_iff

@[simp] theorem Demand.filled_met_iff {cause : Rejection} {text : Option String} :
    (filled cause text).met = true ↔ ∃ t, text = some t ∧ t ≠ "" := by
  cases text with
  | none => simp [filled]
  | some text => simp [filled]

theorem Demand.safe_met (cause : Rejection) (text : String) : (safe cause text).met = isIdentifier text :=
  Bool.eq_iff_iff.2 (Demand.safe_met_iff.trans isIdentifier_iff.symm)

theorem Demand.filled_met (cause : Rejection) (text : Option String) :
    (filled cause text).met = isPresent text := by
  cases text with
  | none => rfl
  | some text => exact Bool.eq_iff_iff.2 (by simp [filled, isPresent])

theorem heeds_safeAll (cause : Rejection) (texts : List String) :
    Heeds (texts.map (.safe cause)) (require cause (texts.all isIdentifier)) := by
  refine heeds_require ?_ ?_
  · rintro d hd
    obtain ⟨text, -, rfl⟩ := List.mem_map.1 hd
    rfl
  · rw [List.all_map]
    exact congrArg texts.all (funext fun text => (Demand.safe_met cause text).symm)

theorem heeds_safe (cause : Rejection) (text : String) :
    Heeds [.safe cause text] (require cause (isIdentifier text)) :=
  heeds_require (by simp [Demand.safe]) (by simp [Demand.safe_met])

/-- A name that has to be there. -/
theorem heeds_safeName (cause : Rejection) (name : Option String) :
    Heeds [.safe cause (name.getD "")] (require cause (name.any isIdentifier)) := by
  cases name with
  | none => exact heeds_safe cause ""
  | some name => exact heeds_safe cause name

/-- A name that may be left out. -/
theorem heeds_safeName? (cause : Rejection) (name : Option String) :
    Heeds (name.toList.map (.safe cause)) (require cause (name.all isIdentifier)) := by
  cases name with
  | none => exact ⟨(), rfl⟩
  | some name => exact heeds_safe cause name

theorem heeds_filled (cause : Rejection) (text : Option String) :
    Heeds [.filled cause text] (require cause (isPresent text)) :=
  heeds_require (by simp [Demand.filled]) (by simp [Demand.filled_met])

theorem heeds_given (cause : Rejection) {γ : Type} (thing : Option γ) :
    Heeds [.given cause thing] (require cause thing.isSome) :=
  heeds_require (by simp [Demand.given]) (by simp [Demand.given])

/-! ### Bodies -/

/-- A draft whose attributes are an object, or nothing, can be written. -/
theorem Draft.exists_write {d : Draft}
    (h : d.attributes = .null ∨ ∃ members, d.attributes = .object members) : ∃ v, d.write = .ok v := by
  have hmember : ∃ members, attributesMember d.attributes = .ok members := by
    rcases h with h | ⟨members, h⟩
    · rw [h]
      exact ⟨_, rfl⟩
    · rw [h]
      cases members <;> exact ⟨_, rfl⟩
  obtain ⟨members, hmember⟩ := hmember
  rw [write, hmember]
  exact ⟨_, rfl⟩

theorem heeds_resource (method : Http.Method) (segments : List String) {d : Draft}
    {members : List (String × Json.Value)} (h : d.attributes = .object members) :
    Heeds [] (Call.resource method segments d) := by
  obtain ⟨v, hwrite⟩ := d.exists_write (.inr ⟨members, h⟩)
  rw [Call.resource, Body.resource, hwrite]
  exact ⟨_, rfl⟩

theorem heeds_references (ids : List String) :
    Heeds [] (Body.resources (ids.map VariableSets.reference)) := by
  have hwrite : ∃ items, (ids.map VariableSets.reference).mapM Draft.write = .ok items := by
    induction ids with
    | nil => exact ⟨[], rfl⟩
    | cons id ids ih =>
      obtain ⟨items, hitems⟩ := ih
      obtain ⟨item, hitem⟩ := (VariableSets.reference id).exists_write (.inl rfl)
      refine ⟨item :: items, ?_⟩
      rw [List.map_cons, List.mapM_cons, hitem, hitems]
      rfl
  obtain ⟨items, hitems⟩ := hwrite
  rw [Body.resources, hitems]
  exact ⟨_, rfl⟩

end Heeding

/-! ## 4. All operations -/

namespace Organizations

theorem heeds_path (organization : String) : Heeds [.safe .invalidOrg organization] (path organization) :=
  (heeds_safe _ _).then fun _ => heeds_pure _

theorem Settings.heeds_checkNew (s : Settings) : Heeds (Operation.create s).wants s.checkNew :=
  (heeds_filled _ _).bind fun _ => (heeds_safeName _ _).bind fun _ => heeds_filled _ _

theorem Operation.heeds (op : Operation) :
    Heeds (TerraformCloud.Operation.organizations op).demands op.call := by
  cases op with
  | list options => exact heeds_pure _
  | create settings => exact settings.heeds_checkNew.then fun _ => heeds_resource _ _ rfl
  | read organization => exact (heeds_path organization).then fun _ => heeds_pure _
  | update organization settings =>
    exact (heeds_path organization).then fun _ => heeds_resource _ _ rfl
  | delete organization => exact (heeds_path organization).then fun _ => heeds_pure _

end Organizations

namespace Projects

theorem heeds_path (id : String) : Heeds [.safe .invalidProjectId id] (path id) :=
  (heeds_safe _ _).then fun _ => heeds_pure _

theorem heeds_listPath (organization : String) :
    Heeds [.safe .invalidOrg organization] (listPath organization) :=
  (Organizations.heeds_path organization).then fun _ => heeds_pure _

/-- Only a name that is given can be empty. -/
theorem heeds_newName (name : Option String) :
    Heeds (name.toList.map fun name => .filled .invalidName (some name))
      (require .invalidName (name ≠ some "")) := by
  cases name with
  | none => exact ⟨(), rfl⟩
  | some name =>
    have hpresent : isPresent (some name) = decide (some name ≠ some "") :=
      Bool.eq_iff_iff.2 (by simp [isPresent])
    have hfilled := heeds_filled .invalidName (some name)
    rwa [hpresent] at hfilled

theorem Operation.heeds (op : Operation) :
    Heeds (TerraformCloud.Operation.projects op).demands op.call := by
  cases op with
  | list organization options => exact (heeds_listPath organization).then fun _ => heeds_pure _
  | create organization project =>
    exact (heeds_listPath organization).bind fun _ =>
      (heeds_filled _ _).then fun _ => heeds_resource _ _ rfl
  | read id => exact (heeds_path id).then fun _ => heeds_pure _
  | update id changes =>
    exact (heeds_path id).bind fun _ =>
      (heeds_newName changes.name).then fun _ => heeds_resource _ _ rfl
  | delete id => exact (heeds_path id).then fun _ => heeds_pure _

end Projects

namespace Workspaces

theorem heeds_listPath (organization : String) :
    Heeds [.safe .invalidOrg organization] (listPath organization) :=
  (Organizations.heeds_path organization).then fun _ => heeds_pure _

theorem heeds_namedPath (organization name : String) :
    Heeds [.safe .invalidOrg organization, .safe .invalidWorkspaceValue name]
      (namedPath organization name) :=
  (heeds_listPath organization).bind fun _ => (heeds_safe _ _).then fun _ => heeds_pure _

theorem heeds_idPath (id : String) : Heeds [.safe .invalidWorkspaceId id] (idPath id) :=
  (heeds_safe _ _).then fun _ => heeds_pure _

theorem heeds_actionPath (id action : String) :
    Heeds [.safe .invalidWorkspaceId id] (actionPath id action) :=
  (heeds_idPath id).then fun _ => heeds_pure _

theorem NewWorkspace.heeds_check (organization : String) (w : NewWorkspace) :
    Heeds (Operation.create organization w).wants w.check :=
  (heeds_filled _ _).bind fun _ => heeds_safeName _ _

theorem Changes.heeds_check (c : Changes) : Heeds (c.name.toList.map (.safe .invalidName)) c.check :=
  heeds_safeName? _ _

theorem Operation.heeds (op : Operation) :
    Heeds (TerraformCloud.Operation.workspaces op).demands op.call := by
  cases op with
  | list organization options => exact (heeds_listPath organization).then fun _ => heeds_pure _
  | create organization workspace =>
    exact (heeds_listPath organization).bind fun _ =>
      (workspace.heeds_check organization).then fun _ => heeds_resource _ _ rfl
  | read organization name included =>
    exact (heeds_namedPath organization name).then fun _ => heeds_pure _
  | readById id => exact (heeds_idPath id).then fun _ => heeds_pure _
  | update organization name changes =>
    exact (heeds_namedPath organization name).bind fun _ =>
      changes.heeds_check.then fun _ => heeds_resource _ _ rfl
  | updateById id changes =>
    exact (heeds_idPath id).bind fun _ => changes.heeds_check.then fun _ => heeds_resource _ _ rfl
  | delete organization name => exact (heeds_namedPath organization name).then fun _ => heeds_pure _
  | deleteById id => exact (heeds_idPath id).then fun _ => heeds_pure _
  | lock id reason => exact (heeds_actionPath id "lock").then fun _ => heeds_pure _
  | unlock id => exact (heeds_actionPath id "unlock").then fun _ => heeds_pure _
  | forceUnlock id => exact (heeds_actionPath id "force-unlock").then fun _ => heeds_pure _

end Workspaces

namespace Runs

theorem heeds_path (id : String) : Heeds [.safe .invalidRunId id] (path id) :=
  (heeds_safe _ _).then fun _ => heeds_pure _

theorem Operation.heeds (op : Operation) :
    Heeds (TerraformCloud.Operation.runs op).demands op.call := by
  cases op with
  | list workspaceId options =>
    exact (Workspaces.heeds_idPath workspaceId).then fun _ => heeds_pure _
  | create run => exact (heeds_filled _ _).then fun _ => heeds_resource _ _ rfl
  | read id included => exact (heeds_path id).then fun _ => heeds_pure _
  | act id action comment => exact (heeds_path id).then fun _ => heeds_pure _

end Runs

theorem Phase.heeds (phase : Phase) (id : String) :
    Heeds (Operation.phase phase id).demands (phase.call id) := by
  have hpath : Heeds (Operation.phase phase id).demands (phase.path id) := by
    cases phase <;> exact (heeds_safe _ _).then fun _ => heeds_pure _
  exact hpath.then fun _ => heeds_pure _

namespace Variables

theorem heeds_listPath (workspaceId : String) :
    Heeds [.safe .invalidWorkspaceId workspaceId] (listPath workspaceId) :=
  (Workspaces.heeds_idPath workspaceId).then fun _ => heeds_pure _

theorem heeds_path (workspaceId id : String) :
    Heeds [.safe .invalidWorkspaceId workspaceId, .safe .invalidVariableId id]
      (path workspaceId id) :=
  (heeds_listPath workspaceId).bind fun _ => (heeds_safe _ _).then fun _ => heeds_pure _

theorem Settings.heeds_checkNew (workspaceId : String) (s : Settings) :
    Heeds (Operation.create workspaceId s).wants s.checkNew :=
  (heeds_filled _ _).bind fun _ => heeds_given _ _

theorem Operation.heeds (op : Operation) :
    Heeds (TerraformCloud.Operation.workspaceVariables op).demands op.call := by
  cases op with
  | list workspaceId page => exact (heeds_listPath workspaceId).then fun _ => heeds_pure _
  | create workspaceId settings =>
    exact (heeds_listPath workspaceId).bind fun _ =>
      (settings.heeds_checkNew workspaceId).then fun _ => heeds_resource _ _ rfl
  | read workspaceId id => exact (heeds_path workspaceId id).then fun _ => heeds_pure _
  | update workspaceId id settings =>
    exact (heeds_path workspaceId id).then fun _ => heeds_resource _ _ rfl
  | delete workspaceId id => exact (heeds_path workspaceId id).then fun _ => heeds_pure _

end Variables

namespace VariableSets

theorem heeds_path (id : String) : Heeds [.safe .invalidVariableSetId id] (path id) :=
  (heeds_safe _ _).then fun _ => heeds_pure _

theorem heeds_listPath (organization : String) :
    Heeds [.safe .invalidOrg organization] (listPath organization) :=
  (Organizations.heeds_path organization).then fun _ => heeds_pure _

theorem heeds_nonempty (ids : List String) :
    Heeds [.given .requiredWorkspacesList ids.head?] (require .requiredWorkspacesList (!ids.isEmpty)) := by
  cases ids with
  | nil => exact rfl
  | cons id ids => exact ⟨(), rfl⟩

theorem heeds_workspacesCall (method : Http.Method) (id : String) (ids : List String) :
    Heeds (.safe .invalidVariableSetId id :: .given .requiredWorkspacesList ids.head? ::
        ids.map (.safe .invalidWorkspaceId))
      (workspacesCall method id ids) :=
  (heeds_path id).bind fun _ => (heeds_nonempty ids).bind fun _ =>
    (heeds_safeAll .invalidWorkspaceId ids).then fun _ => (heeds_references ids).then fun _ => heeds_pure _

theorem Operation.heeds (op : Operation) :
    Heeds (TerraformCloud.Operation.variableSets op).demands op.call := by
  cases op with
  | list organization options => exact (heeds_listPath organization).then fun _ => heeds_pure _
  | create organization settings =>
    exact (heeds_listPath organization).bind fun _ =>
      (heeds_filled _ _).then fun _ => heeds_resource _ _ rfl
  | read id included => exact (heeds_path id).then fun _ => heeds_pure _
  | update id settings => exact (heeds_path id).then fun _ => heeds_resource _ _ rfl
  | delete id => exact (heeds_path id).then fun _ => heeds_pure _
  | applyToWorkspaces id ids => exact heeds_workspacesCall .post id ids
  | removeFromWorkspaces id ids => exact heeds_workspacesCall .delete id ids

end VariableSets

namespace Notifications

theorem heeds_path (id : String) : Heeds [.safe .invalidNotificationConfigId id] (path id) :=
  (heeds_safe _ _).then fun _ => heeds_pure _

theorem heeds_listPath (workspaceId : String) :
    Heeds [.safe .invalidWorkspaceId workspaceId] (listPath workspaceId) :=
  (Workspaces.heeds_idPath workspaceId).then fun _ => heeds_pure _

/-- Whether an address is asked for depends on the destination. -/
theorem heeds_url (destination : Option Destination) (url : Option String) :
    Heeds (if destination.any Destination.requiresUrl then [.filled .requiredUrl url] else [])
      (require .requiredUrl (destination.all (fun d => !d.requiresUrl) || isPresent url)) := by
  cases destination with
  | none => exact ⟨(), rfl⟩
  | some d =>
    rw [Option.any_some, Option.all_some]
    cases d.requiresUrl with
    | false => exact ⟨(), rfl⟩
    | true => exact heeds_filled _ url

theorem NewConfiguration.heeds_check (workspaceId : String) (c : NewConfiguration) :
    Heeds (Operation.create workspaceId c).wants c.check :=
  (heeds_filled _ _).bind fun _ => (heeds_given _ _).bind fun _ => (heeds_given _ _).bind fun _ =>
    heeds_url _ _

theorem Operation.heeds (op : Operation) :
    Heeds (TerraformCloud.Operation.notifications op).demands op.call := by
  cases op with
  | list workspaceId page => exact (heeds_listPath workspaceId).then fun _ => heeds_pure _
  | create workspaceId configuration =>
    exact (heeds_listPath workspaceId).bind fun _ =>
      (configuration.heeds_check workspaceId).then fun _ => heeds_resource _ _ rfl
  | read id => exact (heeds_path id).then fun _ => heeds_pure _
  | update id changes => exact (heeds_path id).then fun _ => heeds_resource _ _ rfl
  | delete id => exact (heeds_path id).then fun _ => heeds_pure _
  | verify id => exact (heeds_path id).then fun _ => heeds_pure _

end Notifications

namespace Policies

theorem heeds_path (id : String) : Heeds [.safe .invalidPolicyId id] (path id) :=
  (heeds_safe _ _).then fun _ => heeds_pure _

theorem heeds_listPath (organization : String) :
    Heeds [.safe .invalidOrg organization] (listPath organization) :=
  (Organizations.heeds_path organization).then fun _ => heeds_pure _

theorem NewPolicy.heeds_check (organization : String) (p : NewPolicy) :
    Heeds (Operation.create organization p).wants p.check :=
  (heeds_filled _ _).bind fun _ => (heeds_safeName _ _).bind fun _ => heeds_given _ _

theorem Operation.heeds (op : Operation) :
    Heeds (TerraformCloud.Operation.policies op).demands op.call := by
  cases op with
  | list organization options => exact (heeds_listPath organization).then fun _ => heeds_pure _
  | create organization policy =>
    exact (heeds_listPath organization).bind fun _ =>
      (policy.heeds_check organization).then fun _ => heeds_resource _ _ rfl
  | read id => exact (heeds_path id).then fun _ => heeds_pure _
  | update id changes => exact (heeds_path id).then fun _ => heeds_resource _ _ rfl
  | delete id => exact (heeds_path id).then fun _ => heeds_pure _

end Policies

namespace RegistryProviders

theorem heeds_listPath (organization : String) :
    Heeds [.safe .invalidOrg organization] (listPath organization) :=
  (Organizations.heeds_path organization).then fun _ => heeds_pure _

theorem Id.heeds_path (id : Id) :
    Heeds (TerraformCloud.Operation.registryProviders (.read id)).demands id.path :=
  (heeds_listPath id.organization).bind fun _ => (heeds_safe _ _).bind fun _ =>
    (heeds_safe _ _).then fun _ => heeds_pure _

theorem NewProvider.heeds_check (organization : String) (p : NewProvider) :
    Heeds (Operation.create organization p).wants p.check :=
  (heeds_filled _ _).bind fun _ => (heeds_safe _ _).bind fun _ => (heeds_safe _ _).bind fun _ =>
    heeds_given _ _

theorem Operation.heeds (op : Operation) :
    Heeds (TerraformCloud.Operation.registryProviders op).demands op.call := by
  cases op with
  | list organization options => exact (heeds_listPath organization).then fun _ => heeds_pure _
  | create organization provider =>
    exact (heeds_listPath organization).bind fun _ =>
      (provider.heeds_check organization).then fun _ => heeds_resource _ _ rfl
  | read id => exact id.heeds_path.then fun _ => heeds_pure _
  | delete id => exact id.heeds_path.then fun _ => heeds_pure _

end RegistryProviders

namespace RegistryModules

theorem Id.heeds_check (id : Id) :
    Heeds (TerraformCloud.Operation.registryModules (.read id)).demands id.check :=
  (heeds_safe _ _).bind fun _ => (heeds_safe _ _).bind fun _ => (heeds_safe _ _).bind fun _ =>
    heeds_safe _ _

theorem Operation.heeds (op : Operation) :
    Heeds (TerraformCloud.Operation.registryModules op).demands op.call := by
  cases op with
  | read id => exact id.heeds_check.then fun _ => heeds_pure _
  | listVersions id => exact id.heeds_check.then fun _ => heeds_pure _

end RegistryModules

namespace Operation

/-- **Every operation heeds its demands.** -/
theorem heeds (op : Operation) : Heeds op.demands op.call := by
  cases op with
  | phase phase id => exact phase.heeds id
  | _ op => exact op.heeds

variable {op : Operation}

theorem call_of_offence {cause : Rejection} (h : offence? op.demands = some cause) :
    op.call = .error (.rejected cause) := by
  have hheeds := op.heeds
  rwa [Heeds, h] at hheeds

/-- An operation stands for a call exactly if all its demands are met. -/
theorem exists_call_iff : (∃ call, op.call = .ok call) ↔ ∀ d ∈ op.demands, d.met = true := by
  rw [← offence?_eq_none_iff]
  constructor
  · rintro ⟨call, hcall⟩
    cases hfirst : offence? op.demands with
    | none => rfl
    | some cause =>
      rw [call_of_offence hfirst] at hcall
      cases hcall
  · intro hnone
    have hheeds := op.heeds
    rwa [Heeds, hnone] at hheeds

/-- The demands are that arguments are identifiers, and what the options have to be. -/
theorem met_iff : (∀ d ∈ op.demands, d.met = true) ↔
    (∀ a ∈ op.arguments, IsSafe a.2) ∧ ∀ d ∈ op.wants, d.met = true := by
  rw [demands, List.forall_mem_append, List.forall_mem_map]
  exact and_congr_left fun _ => forall₂_congr fun a _ => Demand.safe_met_iff

end Operation
end TerraformCloud
