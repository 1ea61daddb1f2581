/-
  TerraformCloud/Proofs/Simulator/Understanding.lean
  ==================================================
  **The service understands operations as they are meant.**

  A path says what an order is about, and dots lead requests to other paths than the ones
  of their routes.  But from none of these other paths does a request give an order: where
  the service understands an operation as an order at all, the order is what the operation
  means (`means_of_issues`).  Without dots a request arrives where it should, and then the
  service hears what was asked (`Hears`).
-/
import TerraformCloud.Proofs.Service.Landings
import TerraformCloud.Proofs.Simulator.Calls
import TerraformCloud.Proofs.Simulator.Incoming

namespace TerraformCloud.Simulator

/-- The order that an operation means. -/
inductive Means : Operation → Order → Prop where
  | createOrganization {settings : Organizations.Settings} {fields : newOrganizationFields.Record} :
      Means (.organizations (.create settings)) (.createOrganization fields)
  | deleteOrganization {name : String} :
      Means (.organizations (.delete name)) (.deleteOrganization name)
  | createWorkspace {organization : String} {o : Workspaces.NewWorkspace} :
      Means (.workspaces (.create organization o)) (.createWorkspace organization o.fields)
  | deleteWorkspace {organization name : String} :
      Means (.workspaces (.delete organization name)) (.deleteWorkspace organization name)
  | lock {id : String} {reason : Option String} :
      Means (.workspaces (.lock id reason)) (.setLock id true)
  | unlock {id : String} : Means (.workspaces (.unlock id)) (.setLock id false)

/-! ## 1. Landings of orders -/

section Landings

variable {op : Operation} {t u : String}

/-- A registry is not mistaken for the word before a name. -/
theorem workspaces_ne_spelling (n : RegistryName) : "workspaces" ≠ n.spelling := by
  cases n <;> decide

attribute [local simp] Operation.method Operation.parts Organizations.Operation.parts
  Projects.Operation.parts Workspaces.Operation.parts Runs.Operation.parts Phase.parts
  Variables.Operation.parts VariableSets.Operation.parts Notifications.Operation.parts
  Policies.Operation.parts RegistryProviders.Operation.parts RegistryModules.Operation.parts
  one words landings Http.Method.get Http.Method.post Http.Method.patch Http.Method.delete
  workspaces_ne_spelling

theorem landing_organizations (hmethod : op.method = .post)
    (h : ["organizations", "v2", "api"] ∈ landings ["v2", "api"] op.parts) :
    ∃ settings, op = .organizations (.create settings) := by
  cases op with
  | phase which id => cases which <;> simp_all
  | _ op => cases op <;> simp_all

theorem landing_organization (ht : t ≠ "") (hmethod : op.method = .delete)
    (h : [t, "organizations", "v2", "api"] ∈ landings ["v2", "api"] op.parts) :
    op = .organizations (.delete t) := by
  cases op with
  | phase which id => cases which <;> simp_all
  | _ op => cases op <;> simp_all

theorem landing_workspaces (hmethod : op.method = .post)
    (h : ["workspaces", t, "organizations", "v2", "api"] ∈ landings ["v2", "api"] op.parts) :
    ∃ o, op = .workspaces (.create t o) := by
  cases op with
  | phase which id => cases which <;> simp_all
  | _ op => cases op <;> simp_all

theorem landing_workspace (hu : u ≠ "") (hmethod : op.method = .delete)
    (h : [u, "workspaces", t, "organizations", "v2", "api"] ∈ landings ["v2", "api"] op.parts) :
    op = .workspaces (.delete t u) := by
  cases op with
  | phase which id => cases which <;> simp_all
  | _ op => cases op <;> simp_all

theorem landing_lock (hmethod : op.method = .post)
    (h : ["lock", "actions", t, "workspaces", "v2", "api"] ∈ landings ["v2", "api"] op.parts) :
    ∃ reason, op = .workspaces (.lock t reason) := by
  cases op with
  | phase which id => cases which <;> simp_all
  | _ op => cases op <;> simp_all

theorem landing_unlock (hmethod : op.method = .post)
    (h : ["unlock", "actions", t, "workspaces", "v2", "api"] ∈ landings ["v2", "api"] op.parts) :
    op = .workspaces (.unlock t) := by
  cases op with
  | phase which id => cases which <;> simp_all
  | _ op => cases op <;> simp_all

end Landings

/-! ## 2. Orders as they are meant -/

/-- Whatever changes something is done behind the interface itself. -/
theorem base_of_method {op : Operation} (h : op.method ≠ .get) : op.base = .api := by
  cases op with
  | registryModules op =>
    cases op with
    | read id => rfl
    | listVersions id => exact absurd rfl h
  | _ => rfl

/-- A new workspace that is asked for has a name and a description that can be sent. -/
theorem create_call {organization : String} {o : Workspaces.NewWorkspace} {call : Call}
    (h : (Operation.workspaces (.create organization o)).call = .ok call) :
    ∃ name body, o.name = some name ∧ isIdentifier name = true ∧ Body.resource o.draft = .ok body ∧
      call.method = .post ∧ call.body = some body := by
  obtain ⟨path, -, h⟩ := ok_of_bind h
  obtain ⟨_, hcheck, h⟩ := ok_of_bind h
  obtain ⟨_, -, hname⟩ := ok_of_bind hcheck
  obtain ⟨name, hsome, hidentifier⟩ := (Option.any_eq_true _ _).1 (of_require hname)
  cases hbody : Body.resource o.draft with
  | error e =>
    rw [Call.resource, hbody] at h
    cases h
  | ok body =>
    rw [Call.resource, hbody] at h
    cases h
    exact ⟨name, body, hsome, hidentifier, rfl, rfl, rfl⟩

theorem format_of_resource {d : Draft} {body : Body} (h : Body.resource d = .ok body) :
    body.format = .jsonApi := by
  unfold Body.resource at h
  cases hwrite : d.write with
  | error e =>
    rw [hwrite] at h
    cases h
  | ok v =>
    rw [hwrite] at h
    cases h
    rfl

section Orders

variable {c : Client} {op : Operation} {o : Order} {r : ApiRequest} {request : Http.Request}

/-- **The service reads a new workspace as it was asked for.** -/
theorem incoming_of_create {organization : String} {o : Workspaces.NewWorkspace}
    (hr : (Operation.workspaces (.create organization o)).request c = .ok r)
    (hwire : r.wire c = .ok request) : incoming newWorkspaceFields (arrivedRequest request) = .ok o.fields := by
  have harrived := arrived_of_wire hwire
  obtain ⟨call, hcall, hrequest⟩ := ok_of_bind hr
  obtain ⟨name, body, hname, -, hdraft, hpost, hbody⟩ := create_call hcall
  obtain ⟨u, params, -, -, rfl⟩ := Call.request_eq_ok_iff.1 hrequest
  have hsent : (⟨call.method, u, Query.extend .empty params, call.body, call.accept, true⟩ :
      ApiRequest).sentBody = some body := by
    rw [ApiRequest.sentBody, hpost, hbody]
    rfl
  apply incoming_newWorkspace hname _ hdraft
  · rw [harrived.body, hsent]
    rfl
  · rw [harrived.media body hsent, format_of_resource hdraft]

/-- What is captured of a path is the identifier that was meant. -/
theorem captured (hr : op.request c = .ok r) {t name : String} (ht : .identifier t ∈ op.parts)
    (hname : Percent.decode? t = some name) : name = t ∧ unescapeName t = t := by
  have hid : isIdentifier t = true := (Operation.address_of_request hr).1 _ ht
  refine ⟨Option.some.inj ?_, unescapeName_identifier hid⟩
  rw [← hname, decode?_identifier hid]

/-- **Where an operation is understood as an order, the order is what it means.** -/
theorem means_of_issues (hpath : c.apiUrl.path = .segments ["api", "v2", ""])
    (hscheme : c.apiUrl.scheme ≠ Url.fileScheme) (h : Issues c op o) : Means op o := by
  obtain ⟨r, request, hr, hwire, horder⟩ := h
  have harrived := arrived_of_wire hwire
  have hmethod : op.method = (arrivedRequest request).method :=
    (op.method_of_request hr).symm.trans harrived.method.symm
  have hbase : op.base = .api := by
    apply base_of_method
    -- nobody orders by looking
    rw [hmethod]
    rcases method_of_order horder with hpost | hdelete
    · rw [hpost]
      decide
    · rw [hdelete]
      decide
  obtain ⟨parts, e, hparts, hat, hordered⟩ := ordered_of_order horder
  have hlanding : parts.reverse ∈ landings ["v2", "api"] op.parts := by
    obtain ⟨top, htop, htarget⟩ := op.landing hpath hscheme hbase hr
    rw [harrived.path, htarget, UrlPath.segments.injEq] at hparts
    rwa [← hparts, List.reverse_reverse]
  -- one operation of this method has a landing where the endpoint is
  cases hordered with
  | createOrganization method read =>
    cases hat
    obtain ⟨settings, rfl⟩ := landing_organizations (hmethod.trans method) hlanding
    exact .createOrganization
  | deleteOrganization method =>
    cases hat with
    | organization hne hname =>
      obtain rfl := landing_organization hne (hmethod.trans method) hlanding
      obtain ⟨rfl, hplain⟩ := captured hr (.tail _ (.head _)) hname
      rw [hplain]
      exact .deleteOrganization
  | createWorkspace method read =>
    cases hat with
    | workspaces hne hname =>
      obtain ⟨o, rfl⟩ := landing_workspaces (hmethod.trans method) hlanding
      obtain ⟨rfl, hplain⟩ := captured hr (.tail _ (.head _)) hname
      rw [incoming_of_create hr hwire] at read
      cases read
      rw [hplain]
      exact .createWorkspace
  | deleteWorkspace method =>
    cases hat with
    | workspaceByName hne hname =>
      obtain rfl := landing_workspace hne.2 (hmethod.trans method) hlanding
      obtain ⟨rfl, hplain⟩ := captured hr (.tail _ (.head _)) hname.1
      obtain ⟨rfl, hplain'⟩ := captured hr (.tail _ (.tail _ (.tail _ (.head _)))) hname.2
      rw [hplain, hplain']
      exact .deleteWorkspace
  | lock method =>
    cases hat with
    | lock hne hid =>
      obtain ⟨reason, rfl⟩ := landing_lock (hmethod.trans method) hlanding
      obtain ⟨rfl, -⟩ := captured hr (.tail _ (.head _)) hid
      exact .lock
  | unlock method =>
    cases hat with
    | unlock hne hid =>
      obtain rfl := landing_unlock (hmethod.trans method) hlanding
      obtain ⟨rfl, -⟩ := captured hr (.tail _ (.head _)) hid
      exact .unlock

end Orders

end TerraformCloud.Simulator
