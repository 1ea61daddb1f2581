/-
  TerraformCloud/Proofs/Service/Renaming.lean
  ===========================================
  **Under which names things are created, and to which they are renamed.**

  Six services create something under a name and change that name later.  What creation
  asks of a name is a rule of the service (`Named.exists_creation_iff`).  An update asks the same of
  a new name for projects and workspaces only (`Named.isChecked`); the other four services
  send any name, and so can give a thing a name that it could not have been created under.
-/
import TerraformCloud.Proofs.Service.Addresses
import TerraformCloud.Proofs.Service.Demands

namespace TerraformCloud

/-! ## 1. Names -/

/-- What is created under a name that can be changed. -/
inductive Named where
  | organization
  | project
  | workspace
  | variable_
  | variableSet
  | notification
deriving DecidableEq, Repr

namespace Named

/-- What creation asks of a name: to be an identifier, or just to be there. -/
def Rule : Named → String → Prop
  | organization, name | workspace, name => IsSafe name
  | project, name | variable_, name | variableSet, name | notification, name => name ≠ ""

instance (thing : Named) (name : String) : Decidable (thing.Rule name) := by
  cases thing <;> unfold Rule <;> infer_instance

/-- Whether an update asks the same of a new name. -/
def isChecked : Named → Bool
  | project | workspace => true
  | organization | variable_ | variableSet | notification => false

theorem Rule.ne_empty {thing : Named} {name : String} (h : thing.Rule name) : name ≠ "" := by
  cases thing with
  | organization | workspace => exact h.1
  | project | variable_ | variableSet | notification => exact h

/-- The member of the attributes that holds the name. -/
def key : Named → String
  | variable_ => "key"
  | _ => "name"

end Named

/-- An operation creates something, under the name that is given for it. -/
inductive Creates : Operation → Named → Option String → Prop where
  | organization (settings : Organizations.Settings) :
      Creates (.organizations (.create settings)) .organization settings.name
  | project (organization : String) (project : Projects.NewProject) :
      Creates (.projects (.create organization project)) .project (some project.name)
  | workspace (organization : String) (workspace : Workspaces.NewWorkspace) :
      Creates (.workspaces (.create organization workspace)) .workspace workspace.name
  | variable_ (workspaceId : String) (settings : Variables.Settings) :
      Creates (.workspaceVariables (.create workspaceId settings)) .variable_ settings.key
  | variableSet (organization : String) (settings : VariableSets.Settings) :
      Creates (.variableSets (.create organization settings)) .variableSet settings.name
  | notification (workspaceId : String) (configuration : Notifications.NewConfiguration) :
      Creates (.notifications (.create workspaceId configuration)) .notification configuration.name

/-- An operation gives something a new name. -/
inductive Renames : Operation → Named → String → Prop where
  | organization {name : String} (organization : String) {settings : Organizations.Settings}
      (h : settings.name = some name) :
      Renames (.organizations (.update organization settings)) .organization name
  | project {name : String} (id : String) {changes : Projects.Changes} (h : changes.name = some name) :
      Renames (.projects (.update id changes)) .project name
  | workspace {name : String} (organization old : String) {changes : Workspaces.Changes}
      (h : changes.name = some name) :
      Renames (.workspaces (.update organization old changes)) .workspace name
  | workspaceById {name : String} (id : String) {changes : Workspaces.Changes}
      (h : changes.name = some name) :
      Renames (.workspaces (.updateById id changes)) .workspace name
  | variable_ {name : String} (workspaceId id : String) {settings : Variables.Settings}
      (h : settings.key = some name) :
      Renames (.workspaceVariables (.update workspaceId id settings)) .variable_ name
  | variableSet {name : String} (id : String) {settings : VariableSets.Settings}
      (h : settings.name = some name) :
      Renames (.variableSets (.update id settings)) .variableSet name
  | notification {name : String} (id : String) {changes : Notifications.Changes}
      (h : changes.name = some name) :
      Renames (.notifications (.update id changes)) .notification name

/-! ## 2. Creation -/

/-- A creation that stands for a call has a name that follows the rule. -/
theorem Creates.rule {op : Operation} {thing : Named} {name : Option String}
    (h : Creates op thing name) {call : Call} (hcall : op.call = .ok call) :
    ∃ n, name = some n ∧ thing.Rule n := by
  obtain ⟨-, hmet⟩ := Operation.met_iff.1 (Operation.exists_call_iff.1 ⟨call, hcall⟩)
  cases h with
  | organization settings | workspace _ settings =>
    obtain ⟨hfilled, hrest⟩ := List.forall_mem_cons.1 hmet
    obtain ⟨hsafe, -⟩ := List.forall_mem_cons.1 hrest
    obtain ⟨n, hn, -⟩ := Demand.filled_met_iff.1 hfilled
    rw [hn] at hsafe
    exact ⟨n, hn, Demand.safe_met_iff.1 hsafe⟩
  | project | variable_ | variableSet | notification =>
    obtain ⟨hfilled, -⟩ := List.forall_mem_cons.1 hmet
    exact Demand.filled_met_iff.1 hfilled

/-- An operation that creates a thing under a name, and has nothing else wrong with it. -/
def Named.creation (name : String) : Named → Operation
  | organization => .organizations (.create { name := some name, email := some "owner@acme.test" })
  | project => .projects (.create "acme" { name })
  | workspace => .workspaces (.create "acme" { name := some name })
  | variable_ => .workspaceVariables (.create "ws-1" { key := some name, category := some .terraform })
  | variableSet => .variableSets (.create "acme" { name := some name })
  | notification =>
    .notifications (.create "ws-1"
      { name := some name, destinationType := some .email, enabled := some true })

theorem Named.creates_creation (name : String) (thing : Named) :
    Creates (thing.creation name) thing (some name) := by
  cases thing <;> constructor

theorem Named.met_of_rule {thing : Named} {name : String} (h : thing.Rule name) :
    ∀ d ∈ (thing.creation name).demands, d.met = true := by
  have hfilled {cause : Rejection} : (Demand.filled cause (some name)).met = true :=
    Demand.filled_met_iff.2 ⟨name, rfl, h.ne_empty⟩
  have horganization : IsSafe "acme" := by decide
  have hworkspace : IsSafe "ws-1" := by decide
  rw [Operation.met_iff]
  cases thing with
  | organization =>
    have hsafe : (Demand.safe .invalidName name).met = true := Demand.safe_met_iff.2 h
    have hemail : (Demand.filled .requiredEmail (some "owner@acme.test")).met = true := by decide
    exact ⟨List.forall_mem_nil _, List.forall_mem_cons.2
      ⟨hfilled, List.forall_mem_cons.2 ⟨hsafe, List.forall_mem_singleton.2 hemail⟩⟩⟩
  | project =>
    exact ⟨List.forall_mem_singleton.2 horganization, List.forall_mem_singleton.2 hfilled⟩
  | workspace =>
    have hsafe : (Demand.safe .invalidName name).met = true := Demand.safe_met_iff.2 h
    exact ⟨List.forall_mem_singleton.2 horganization,
      List.forall_mem_cons.2 ⟨hfilled, List.forall_mem_singleton.2 hsafe⟩⟩
  | variable_ =>
    exact ⟨List.forall_mem_singleton.2 hworkspace,
      List.forall_mem_cons.2 ⟨hfilled, List.forall_mem_singleton.2 rfl⟩⟩
  | variableSet =>
    exact ⟨List.forall_mem_singleton.2 horganization, List.forall_mem_singleton.2 hfilled⟩
  | notification =>
    exact ⟨List.forall_mem_singleton.2 hworkspace,
      List.forall_mem_cons.2 ⟨hfilled, List.forall_mem_cons.2 ⟨rfl, List.forall_mem_singleton.2 rfl⟩⟩⟩

/-- **A thing can be created under a name exactly if the name follows the rule.** -/
theorem Named.exists_creation_iff {thing : Named} {name : String} :
    (∃ op call, Creates op thing (some name) ∧ op.call = .ok call) ↔ thing.Rule name := by
  constructor
  · rintro ⟨op, call, hcreates, hcall⟩
    obtain ⟨n, hn, hrule⟩ := hcreates.rule hcall
    obtain rfl : name = n := Option.some.inj hn
    exact hrule
  · intro hrule
    obtain ⟨call, hcall⟩ := Operation.exists_call_iff.2 (met_of_rule hrule)
    exact ⟨thing.creation name, call, thing.creates_creation name, hcall⟩

/-! ## 3. Renaming -/

/-- A request that gives a thing a new name. -/
def IsRenaming (thing : Named) (name : String) (request : Http.Request) : Prop :=
  request.method = .patch ∧ ∃ d members body, d.attributes = .object members ∧
    (thing.key, .string name) ∈ members ∧ Body.resource d = .ok body ∧ request.body = some body.bytes

/-- A call that sends a draft. -/
theorem Call.of_resource {method : Http.Method} {segments : List String} {d : Draft} {call : Call}
    (h : Call.resource method segments d = .ok call) :
    ∃ body, Body.resource d = .ok body ∧ call = { method, segments, body := some body } := by
  cases hbody : Body.resource d with
  | error e => rw [Call.resource, hbody] at h; cases h
  | ok body => rw [Call.resource, hbody] at h; cases h; exact ⟨body, rfl, rfl⟩

namespace Renames

variable {op : Operation} {thing : Named} {name : String}

/-- All identifiers of a renaming are in its path. -/
theorem arguments_eq (h : Renames op thing name) : op.arguments.map (·.2) = op.identifiers := by
  cases h <;> rfl

/-- Of its options at most the name is asked for. -/
theorem wants_met_iff (h : Renames op thing name) :
    (∀ d ∈ op.wants, d.met = true) ↔ (thing.isChecked = true → thing.Rule name) := by
  cases h with
  | organization | variable_ | variableSet | notification =>
    exact ⟨fun _ hchecked => absurd hchecked Bool.false_ne_true, fun _ => List.forall_mem_nil _⟩
  | project _ h | workspace _ _ h | workspaceById _ h =>
    simp [Operation.wants, Projects.Operation.wants, Workspaces.Operation.wants, h, Named.isChecked, Named.Rule]

/-- What a renaming sends is a draft with the new name. -/
theorem exists_draft (h : Renames op thing name) {call : Call} (hcall : op.call = .ok call) :
    ∃ segments d members, Call.resource .patch segments d = .ok call ∧
      d.attributes = .object members ∧ (thing.key, .string name) ∈ members := by
  cases h with
  | organization _ h | variable_ _ _ h | variableSet _ h | notification _ h =>
    obtain ⟨segments, -, hcall⟩ := ok_of_bind hcall
    exact ⟨segments, _, _, hcall, rfl, by simp [Schema.sparse, textMember, h, Named.key, Json.Value.opt]⟩
  | project _ h | workspace _ _ h | workspaceById _ h =>
    -- here the name is checked between the path and the draft
    obtain ⟨segments, -, hcall⟩ := ok_of_bind hcall
    obtain ⟨u, -, hcall⟩ := ok_of_bind hcall
    exact ⟨segments, _, _, hcall, rfl, by simp [Schema.sparse, textMember, h, Named.key, Json.Value.opt]⟩

theorem exists_call_iff (h : Renames op thing name) : (∃ call, op.call = .ok call) ↔
    (∀ id ∈ op.identifiers, IsSafe id) ∧ (thing.isChecked = true → thing.Rule name) := by
  rw [Operation.exists_call_iff, Operation.met_iff, h.wants_met_iff, ← h.arguments_eq, List.forall_mem_map]

variable {σ : Type} {link : Link σ} {c : Client} {s : σ}

/-- What goes out for a renaming says so, and what is asked of its arguments was met. -/
theorem of_isSent (h : Renames op thing name) {request : Http.Request}
    (hsent : Operation.IsSent link c op s request) :
    IsRenaming thing name request ∧ (∀ id ∈ op.identifiers, IsSafe id) ∧
      (thing.isChecked = true → thing.Rule name) := by
  obtain ⟨r, hr, hwire⟩ := hsent.request
  obtain ⟨call, hcall, hrequest⟩ := ok_of_bind hr
  refine ⟨?_, h.exists_call_iff.1 ⟨call, hcall⟩⟩
  obtain ⟨segments, d, members, hresource, hmembers, hname⟩ := h.exists_draft hcall
  obtain ⟨body, hbody, rfl⟩ := Call.of_resource hresource
  obtain ⟨u, params, -, -, rfl⟩ := Call.request_eq_ok_iff.1 hrequest
  obtain ⟨headers, -, rfl⟩ := ApiRequest.wire_eq hwire
  exact ⟨Http.Request.of_method _ _ _ _, d, members, body, hmembers, hname, hbody,
    Http.Request.of_body _ _ _ _⟩

theorem exists_isSent (h : Renames op thing name) (hcan : Operation.CanSend link c s)
    (hids : ∀ id ∈ op.identifiers, IsSafe id) (hrule : thing.isChecked = true → thing.Rule name) :
    ∃ request, Operation.IsSent link c op s request := by
  obtain ⟨call, hcall⟩ := h.exists_call_iff.2 ⟨hids, hrule⟩
  obtain ⟨segments, d, members, hresource, -, -⟩ := h.exists_draft hcall
  obtain ⟨body, -, rfl⟩ := Call.of_resource hresource
  obtain ⟨request, hsent, -⟩ := hcan.exists_isSent hcall rfl rfl
  exact ⟨request, hsent⟩

/-- Services that check no new name take the empty one, under which nothing is created. -/
theorem exists_empty {thing : Named} (hthing : thing.isChecked = false) :
    ∃ op, Renames op thing "" ∧ ¬thing.Rule "" ∧
      ∀ {σ : Type} (link : Link σ) (c : Client) (s : σ), Operation.CanSend link c s →
        ∃ request, Operation.IsSent link c op s request := by
  have hop : ∃ op, Renames op thing "" ∧ ¬thing.Rule "" ∧ ∀ id ∈ op.identifiers, IsSafe id := by
    cases thing with
    | organization =>
      exact ⟨.organizations (.update "acme" { name := some "" }), .organization _ rfl, by decide, by decide⟩
    | variable_ =>
      exact ⟨.workspaceVariables (.update "ws-1" "var-1" { key := some "" }), .variable_ _ _ rfl,
        by decide, by decide⟩
    | variableSet =>
      exact ⟨.variableSets (.update "varset-1" { name := some "" }), .variableSet _ rfl, by decide, by decide⟩
    | notification =>
      exact ⟨.notifications (.update "nc-1" { name := some "" }), .notification _ rfl, by decide, by decide⟩
    | project | workspace => cases hthing
  obtain ⟨op, hrenames, hrule, hids⟩ := hop
  refine ⟨op, hrenames, hrule, fun link c s hcan => hrenames.exists_isSent hcan hids fun hchecked => ?_⟩
  rw [hthing] at hchecked
  cases hchecked

end Renames

namespace Operation

/-- **To which names things are renamed.**  Creation makes the rules.  A renaming goes out,
    from a client that can send, exactly if the identifiers in its path are identifiers and,
    for projects and workspaces, the new name follows the rule of creation. -/
theorem renaming_isSent_iff {op : Operation} {thing : Named} {name : String}
    (h : Renames op thing name) :
    (∀ n, (∃ op call, Creates op thing (some n) ∧ op.call = .ok call) ↔ thing.Rule n) ∧
    ∀ {σ : Type} (link : Link σ) (c : Client) (s : σ),
      (∀ request, IsSent link c op s request → IsRenaming thing name request ∧
        (∀ id ∈ op.identifiers, IsSafe id) ∧ (thing.isChecked = true → thing.Rule name)) ∧
      (CanSend link c s → (∀ id ∈ op.identifiers, IsSafe id) →
        (thing.isChecked = true → thing.Rule name) → ∃ request, IsSent link c op s request) :=
  ⟨fun _ => Named.exists_creation_iff, fun _ _ _ =>
    ⟨fun _ hsent => h.of_isSent hsent, fun hcan hids hrule => h.exists_isSent hcan hids hrule⟩⟩

/-- A workspace gets another name that is an identifier. -/
theorem workspace_renamed : ∃ c request, IsPublic c ∧
    Renames (.workspaces (.update "acme" "app" { name := some "core" })) .workspace "core" ∧
    IsSent (Rehearsal.link ⟨Peer.scripted, false, none⟩) c
      (.workspaces (.update "acme" "app" { name := some "core" })) (World.start []) request ∧
    IsRenaming .workspace "core" request := by
  obtain ⟨c, hpublic⟩ := exists_isPublic
  have hrenames : Renames (.workspaces (.update "acme" "app" { name := some "core" })) .workspace "core" :=
    .workspace _ _ rfl
  obtain ⟨htold, hsent⟩ := (renaming_isSent_iff hrenames).2
    (Rehearsal.link ⟨Peer.scripted, false, none⟩) c (World.start [])
  obtain ⟨request, hrequest⟩ := hsent hpublic.canSend (by decide) fun _ => by decide
  exact ⟨c, request, hpublic, hrenames, hrequest, (htold request hrequest).1⟩

/-- **An organization gets a name under which it is neither created nor found.** -/
theorem organization_renamed_beyond_reach : ∃ c request, IsPublic c ∧
    Renames (.organizations (.update "acme" { name := some "no one" })) .organization "no one" ∧
    IsSent (Rehearsal.link ⟨Peer.scripted, false, none⟩) c
      (.organizations (.update "acme" { name := some "no one" })) (World.start []) request ∧
    IsRenaming .organization "no one" request ∧ ¬Named.organization.Rule "no one" ∧
    (Operation.organizations (.read "no one")).call = .error (.rejected .invalidOrg) := by
  obtain ⟨c, hpublic⟩ := exists_isPublic
  have hrenames : Renames (.organizations (.update "acme" { name := some "no one" }))
      .organization "no one" := .organization _ rfl
  have hunchecked : Named.organization.isChecked = true → Named.organization.Rule "no one" :=
    fun hchecked => absurd hchecked Bool.false_ne_true
  obtain ⟨request, hrequest⟩ := hrenames.exists_isSent hpublic.canSend (by decide) hunchecked
  exact ⟨c, request, hpublic, hrenames, hrequest, (hrenames.of_isSent hrequest).1, by decide,
    call_of_offence (by decide)⟩

end Operation
end TerraformCloud
