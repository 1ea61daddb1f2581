/-
  TerraformCloud/Proofs/Simulator/Names.lean
  ==========================================
  **Where the path of a name leads.**

  Organizations and workspaces can have any name, and a caller escapes it to put it into a
  path.  A captured segment is unescaped, and then the name in it is unescaped once more.  So
  the path of a name leads to what has this name without its escapes (`leadsTo_unescaped`).
  To most names this makes no difference: those that it does not change are without a percent
  sign in front of two digits in base sixteen, or have some that spell no text
  (`unescapeName_eq_self_iff`).  The paths of all others lead to another organization, or to
  another workspace.
-/
import TerraformCloud.Proofs.Simulator.Granted
import TerraformCloud.Proofs.Simulator.Lookups
import TerraformCloud.Proofs.Simulator.Served
import TerraformCloud.Proofs.Text.Characters

namespace TerraformCloud.Simulator

open Store (owner? isNamed)

/-! ## 1. Names that look escaped -/

/-- A name without escapes, or with some that spell no text. -/
def IsPlainName (t : String) : Prop :=
  (∀ e, Percent.IsTriple e → ¬e <:+: Utf8.encode t) ∨ Percent.decode? t = none

/-- **Unescaping leaves exactly the plain names as they are.** -/
theorem unescapeName_eq_self_iff {t : String} : unescapeName t = t ↔ IsPlainName t := by
  rw [unescapeName, IsPlainName, ← Percent.decodeBytes_eq_self_iff]
  cases hread : Percent.decode? t with
  | none => simp
  | some u =>
    have hbytes : Percent.decodeBytes (Utf8.encode t) = Utf8.encode u :=
      Utf8.decode?_eq_some_iff.1 hread
    rw [hbytes, Option.getD_some]
    constructor
    · rintro rfl
      exact .inl rfl
    · rintro (hsame | hnone)
      · exact Utf8.encode_inj.1 hsame
      · cases hnone

theorem encode_ne_empty {name : String} (h : name ≠ "") : Percent.encode name ≠ "" := by
  intro hempty
  have hread := Percent.decode?_encode name
  rw [hempty] at hread
  exact h (Option.some.inj (hread.symm.trans (by decide +kernel)))

/-! ## 2. Taking out -/

/-- Exactly one organization is taken out, with its workspaces. -/
def WithoutOrganization (name : String) (s s' : Store) : Prop :=
  ∃ organizations workspaces, s' = { s with organizations, workspaces } ∧
    (∀ key, organizations.find? key = if key = name then none else s.organizations.find? key) ∧
    ∀ id, workspaces.find? id = (s.workspaces.find? id).filter fun w => owner? w ≠ some name

theorem withoutOrganization (s : Store) (name : String) :
    WithoutOrganization name s (s.removeOrganization name) :=
  ⟨_, _, rfl, by simp, by simp⟩

/-! ## 3. Paths -/

/-- The path of an organization. -/
def organizationPath (name : String) : List String :=
  ["api", "v2", "organizations", Percent.encode name]

/-- The path of a workspace of an organization. -/
def workspacePath (organization name : String) : List String :=
  ["api", "v2", "organizations", Percent.encode organization, "workspaces", Percent.encode name]

/-- The paths of two names lead to an organization, and to one of its workspaces: these are
    what is read there, and nothing else is deleted there.  A workspace is taken out under the
    id that it has. -/
structure LeadsTo (o n organization name : String) : Prop where
  readOrganization (now : Instant) (req : Http.Request) (s : Store) (method : req.method = .get)
    (path : req.url.path = .segments (organizationPath o)) :
    handle now req s = guarded s req.headers (found s (s.organizations.find? organization))
  deleteOrganization (now : Instant) (req : Http.Request) (s : Store)
    (method : req.method = .delete) (path : req.url.path = .segments (organizationPath o)) :
    ∃ s', WithoutOrganization organization s s' ∧ handle now req s = guarded s req.headers
      (if (s.organizations.find? organization).isSome then (s', bare 204) else (s, notFound))
  readWorkspace (now : Instant) (req : Http.Request) (s : Store) (method : req.method = .get)
    (path : req.url.path = .segments (workspacePath o n)) :
    handle now req s = guarded s req.headers
      (found s (s.workspaces.values.find? (isNamed organization name)))
  deleteWorkspace (now : Instant) (req : Http.Request) (s : Store) (method : req.method = .delete)
    (path : req.url.path = .segments (workspacePath o n)) :
    match s.workspaces.values.find? (isNamed organization name) with
    | none => handle now req s = guarded s req.headers (s, notFound)
    | some w => ∃ s', WithoutWorkspace w.id s s' ∧ handle now req s = guarded s req.headers
        (s', if (s.workspaces.find? w.id).isSome then bare 204 else notFound)

theorem handle_of_get {now : Instant} {req : Http.Request} {s : Store} {q : Question}
    (method : req.method = .get) (h : Errand.of req = .question q) :
    handle now req s = guarded s req.headers (s, q.answer s) := by
  rw [handle_eq, h, Errand.run, method]
  rfl

section Paths

variable {o n : String}

theorem organization_at (ho : o ≠ "") : At (organizationPath o) (.organization o) :=
  .organization (encode_ne_empty ho) (Percent.decode?_encode o)

theorem workspace_at (ho : o ≠ "") (hn : n ≠ "") : At (workspacePath o n) (.workspaceByName o n) :=
  .workspaceByName ⟨encode_ne_empty ho, encode_ne_empty hn⟩
    ⟨Percent.decode?_encode o, Percent.decode?_encode n⟩

/-- **The paths of names lead to the names without their escapes.** -/
theorem leadsTo_unescaped (ho : o ≠ "") (hn : n ≠ "") :
    LeadsTo o n (unescapeName o) (unescapeName n) := by
  constructor
  · intro now req s method path
    have herrand : Errand.of req = .question (.organization (unescapeName o)) := by
      rw [errand_at path (organization_at ho) (by rw [method]; rfl), Errand.understood, method]
      rfl
    rw [handle_of_get method herrand, Question.answer, ← found_eq]
  · intro now req s method path
    have herrand : Errand.of req = .order (.deleteOrganization (unescapeName o)) := by
      rw [errand_at path (organization_at ho) (by rw [method]; rfl), Errand.understood,
        if_pos method]
    exact ⟨_, withoutOrganization s _, handle_of_order herrand⟩
  · intro now req s method path
    have herrand : Errand.of req = .question (.workspace (unescapeName o) (unescapeName n)) := by
      rw [errand_at path (workspace_at ho hn) (by rw [method]; rfl), Errand.understood, method]
      rfl
    rw [handle_of_get method herrand, Question.answer, ← found_eq, findWorkspace?_eq_find?]
  · intro now req s method path
    have herrand : Errand.of req = .order (.deleteWorkspace (unescapeName o) (unescapeName n)) := by
      rw [errand_at path (workspace_at ho hn) (by rw [method]; rfl), Errand.understood,
        if_pos method]
    rw [handle_of_order herrand, Order.obey, Store.removeWorkspace, findWorkspace?_eq_find?]
    cases s.workspaces.values.find? (isNamed (unescapeName o) (unescapeName n)) with
    | none => rfl
    | some w =>
      refine ⟨_, withoutWorkspace s w.id, ?_⟩
      dsimp only
      cases s.workspaces.find? w.id <;> rfl

theorem isSome_of_found {α : Type} [Attributes α] {s : Store} {x y : Option (Resource α)}
    (h : found s x = found s y) : x.isSome = y.isSome := by
  have hstatus := congrArg (fun answer => answer.2.status) h
  cases x <;> cases y <;> first | rfl | cases hstatus

theorem isNamed_exampleWorkspace {id organization name : String} :
    isNamed organization name (exampleWorkspace id o n) = true ↔ o = organization ∧ n = name := by
  have howner : owner? (exampleWorkspace id o n) = some o := Store.owner?_of_ownedBy rfl
  rw [isNamed, howner, Bool.and_eq_true, decide_eq_true_iff, decide_eq_true_iff, Option.some_inj]
  rfl

/-- What a path leads to is what it is the path of only if unescaping changes neither name. -/
theorem unescaped_of_leadsTo (ho : o ≠ "") (hn : n ≠ "") (h : LeadsTo o n o n) :
    unescapeName o = o ∧ unescapeName n = n := by
  -- where one workspace is all there is, no other names lead to it
  let w := exampleWorkspace "ws-1" o n
  let s := Store.empty.withWorkspace w
  let now := onTheHour 0 ((Date.of? 2024 1 1).get rfl)
  let req := localRequest .get ["organizations", Percent.encode o, "workspaces", Percent.encode n] none
  have hread := (leadsTo_unescaped ho hn).readWorkspace now req s rfl rfl
  have hmeant := h.readWorkspace now req s rfl rfl
  have hsame : found s ([w].find? (isNamed (unescapeName o) (unescapeName n))) =
      found s ([w].find? (isNamed o n)) := hread.symm.trans hmeant
  have hfound : [w].find? (isNamed o n) = some w :=
    List.find?_cons_of_pos (isNamed_exampleWorkspace.2 ⟨rfl, rfl⟩)
  have hnamed := isSome_of_found hsame
  rw [hfound, Option.isSome_some, List.find?_isSome] at hnamed
  obtain ⟨_, hmem, hnamed⟩ := hnamed
  rw [List.mem_singleton.1 hmem] at hnamed
  obtain ⟨horganization, hname⟩ := isNamed_exampleWorkspace.1 hnamed
  exact ⟨horganization.symm, hname.symm⟩

end Paths

/-- **The paths of names lead to what has them exactly if unescaping changes neither.**
    Otherwise they lead to what has the names without their escapes. -/
theorem names_survive_iff {organization name : String} (horganization : organization ≠ "")
    (hname : name ≠ "") :
    LeadsTo organization name (unescapeName organization) (unescapeName name) ∧
      (LeadsTo organization name organization name ↔
        IsPlainName organization ∧ IsPlainName name) := by
  have hall := leadsTo_unescaped horganization hname
  refine ⟨hall, ?_⟩
  rw [← unescapeName_eq_self_iff, ← unescapeName_eq_self_iff]
  constructor
  · exact unescaped_of_leadsTo horganization hname
  · rintro ⟨ho, hn⟩
    rwa [ho, hn] at hall

/-- Blanks, slashes, other letters and a lone percent sign do no harm. -/
theorem plain_names_survive :
    "größe 1/2" ≠ "" ∧ "50% off" ≠ "" ∧
      Percent.encode "größe 1/2" = "gr%C3%B6%C3%9Fe%201%2F2" ∧
      LeadsTo "größe 1/2" "50% off" "größe 1/2" "50% off" := by
  have horganization : unescapeName "größe 1/2" = "größe 1/2" := by decide +kernel
  have hname : unescapeName "50% off" = "50% off" := by decide +kernel
  obtain ⟨-, hiff⟩ := @names_survive_iff "größe 1/2" "50% off" (by decide) (by decide)
  refine ⟨by decide, by decide, by decide +kernel, hiff.2 ⟨?_, ?_⟩⟩
  · exact unescapeName_eq_self_iff.1 horganization
  · exact unescapeName_eq_self_iff.1 hname

/-- Two organizations, the name of one of which is the other one's, escaped. -/
def percentStore : Store :=
  (Store.empty.withOrganization (exampleOrganization "100%")).withOrganization
    (exampleOrganization "100%25")

/-- Whoever reads or deletes the second one gets, or loses, the first one. -/
theorem escaped_name_lost :
    let now := onTheHour 0 ((Date.of? 2024 1 1).get rfl)
    let path := ["organizations", Percent.encode "100%25"]
    let read := handle now (localRequest .get path none) percentStore
    let deleted := handle now (localRequest .delete path none) percentStore
    read.2 = single 200 (exampleOrganization "100%") ∧ deleted.2 = bare 204 ∧
      deleted.1.organizations.find? "100%25" = some (exampleOrganization "100%25") ∧
      deleted.1.organizations.find? "100%" = none := by
  intro now path read deleted
  have hunescaped : unescapeName "100%25" = "100%" := by decide +kernel
  have hleads := leadsTo_unescaped (o := "100%25") (n := "100%25") (by decide) (by decide)
  rw [hunescaped] at hleads
  have hfirst : percentStore.organizations.find? "100%" = some (exampleOrganization "100%") := by
    simp [percentStore, Store.withOrganization, exampleOrganization]
  have hsecond : percentStore.organizations.find? "100%25" = some (exampleOrganization "100%25") := by
    simp [percentStore, Store.withOrganization, exampleOrganization]
  constructor
  · have hread := hleads.readOrganization now (localRequest .get path none) percentStore rfl rfl
    rw [hfirst] at hread
    exact congrArg Prod.snd hread
  · obtain ⟨s', ⟨organizations, workspaces, rfl, horganizations, -⟩, hdeleted⟩ :=
      hleads.deleteOrganization now (localRequest .delete path none) percentStore rfl rfl
    rw [hfirst] at hdeleted
    have hafter : deleted = ({ percentStore with organizations, workspaces }, bare 204) := hdeleted
    rw [hafter]
    refine ⟨rfl, ?_, ?_⟩
    · rw [horganizations, if_neg (by decide), hsecond]
    · rw [horganizations, if_pos rfl]

end TerraformCloud.Simulator
