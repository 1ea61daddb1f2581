/-
  TerraformCloud/Proofs/Simulator/Seeded.lean
  ===========================================
  **What a creation does to data of any origin.**

  A service may begin with any organizations and workspaces, each under its id (`Filed`).
  Ids for new workspaces are counted from one on, whatever the service began with.  So a
  workspace that is kept under a number not yet given out was there at the beginning
  (`Counted.seeded_of_next`), and this is the only one whose place a new workspace can
  take.  Where it does, the old one is lost, since no workspace with the new name was
  there (`creation_adds_or_replaces`).  A new organization always gets a place of its own.
-/
import TerraformCloud.Proofs.Simulator.Granted

namespace TerraformCloud

/-! ## 1. Entries that are added or replaced -/

namespace Keyed

variable {α : Type} {m : Keyed α} {key : String} {value : α}

/-- There is exactly one entry more. -/
structure Adds (m m' : Keyed α) (key : String) (value : α) : Prop where
  free : m.find? key = none
  entries : m'.entries.Perm ((key, value) :: m.entries)

theorem adds_insert (h : m.find? key = none) : Adds m (m.insert key value) key value := by
  refine ⟨h, (List.perm_ext_iff_of_nodup (nodup_entries _) (List.nodup_cons.2 ⟨?_, m.nodup_entries⟩)).2 ?_⟩
  · rw [mem_entries_iff, h]
    exact nofun
  · rintro ⟨k, v⟩
    rw [mem_entries_iff, find?_insert_eq_some_iff, List.mem_cons, mem_entries_iff, Prod.mk.injEq]
    constructor
    · rintro (⟨rfl, rfl⟩ | ⟨-, hfound⟩)
      · exact .inl ⟨rfl, rfl⟩
      · exact .inr hfound
    · rintro (⟨rfl, rfl⟩ | hfound)
      · exact .inl ⟨rfl, rfl⟩
      · refine .inr ⟨?_, hfound⟩
        rintro rfl
        rw [h] at hfound
        cases hfound

/-- What is put over something else adds no key. -/
theorem keys_insert (h : (m.find? key).isSome = true) : (m.insert key value).keys = m.keys := by
  have hnodup (n : Keyed α) : n.keys.Nodup := by
    refine n.keys_ascending.imp ?_
    rintro a b hlt rfl
    exact String.lt_irrefl _ hlt
  have hperm : (m.insert key value).keys.Perm m.keys := by
    refine (List.perm_ext_iff_of_nodup (hnodup _) (hnodup m)).2 fun k => ?_
    rw [mem_keys_iff, mem_keys_iff, find?_insert]
    split
    · next heq => simp [heq, h]
    · rfl
  refine hperm.eq_of_pairwise ?_ (keys_ascending _) m.keys_ascending
  intro a b _ _ hab hba
  exact absurd hab (String.lt_asymm hba)

end Keyed

namespace Simulator

/-! ## 2. Where a service begins -/

/-- Something that a service begins with. -/
inductive Seed where
  | organization (o : Resource Organization)
  | workspace (w : Resource Workspace)

def Store.seed (s : Store) : Seed → Store
  | .organization o => s.withOrganization o
  | .workspace w => s.withWorkspace w

/-- A service with any data; any callers may be known to it, and any limits announced. -/
def Store.seeded (token : Option String) (limit : Option UInt32) (version : String) (seeds : List Seed) :
    Store :=
  seeds.foldl Store.seed { Store.empty with requiredToken := token, rateLimit := limit, apiVersion := version }

/-- Every resource is kept under its id. -/
structure Filed (s : Store) : Prop where
  organizations : ∀ name o, s.organizations.find? name = some o → o.id = name
  workspaces : ∀ id w, s.workspaces.find? id = some w → w.id = id

/-- A workspace was there at the beginning, or has a number that was given out. -/
def Counted (seeds : List Seed) (s : Store) : Prop :=
  ∀ id w, s.workspaces.find? id = some w →
    (∃ v, .workspace v ∈ seeds ∧ v.id = id) ∨ ∃ n < s.nextNumber, id = workspaceId n

section Beginning

variable {seeds : List Seed} {s : Store}

theorem Filed.withOrganization (h : Filed s) (o : Resource Organization) : Filed (s.withOrganization o) where
  organizations name o' ho' := by
    rcases Keyed.find?_insert_eq_some_iff.1 ho' with ⟨rfl, rfl⟩ | ⟨-, hbefore⟩
    · rfl
    · exact h.organizations name o' hbefore
  workspaces := h.workspaces

theorem Filed.insertWorkspace (h : Filed s) {w : Resource Workspace} {id : String} (hid : w.id = id)
    (next : Nat) : Filed { s with workspaces := s.workspaces.insert id w, nextNumber := next } where
  organizations := h.organizations
  workspaces id' w' hw' := by
    rcases Keyed.find?_insert_eq_some_iff.1 hw' with ⟨rfl, rfl⟩ | ⟨-, hbefore⟩
    · exact hid
    · exact h.workspaces id' w' hbefore

theorem Filed.seed (h : Filed s) (x : Seed) : Filed (s.seed x) := by
  cases x with
  | organization o => exact h.withOrganization o
  | workspace w => exact h.insertWorkspace rfl s.nextNumber

theorem Counted.seed (h : Counted seeds s) {x : Seed} (hx : x ∈ seeds) : Counted seeds (s.seed x) := by
  cases x with
  | organization o => exact h
  | workspace w =>
    intro id w' hw'
    rcases Keyed.find?_insert_eq_some_iff.1 hw' with ⟨rfl, -⟩ | ⟨-, hbefore⟩
    · exact .inl ⟨w, hx, rfl⟩
    · exact h id w' hbefore

/-- What a service begins with is filed and counted, and its numbers begin with one. -/
theorem seeded_spec (token : Option String) (limit : Option UInt32) (version : String) (seeds : List Seed) :
    let s := Store.seeded token limit version seeds
    Filed s ∧ Counted seeds s ∧ s.nextNumber = 1 := by
  have hfold : ∀ (later : List Seed) (s : Store), (∀ x ∈ later, x ∈ seeds) →
      Filed s ∧ Counted seeds s ∧ s.nextNumber = 1 →
        let s' := later.foldl Store.seed s
        Filed s' ∧ Counted seeds s' ∧ s'.nextNumber = 1 := by
    intro later
    induction later with
    | nil => exact fun s _ h => h
    | cons x later ih =>
      rintro s hall ⟨hfiled, hcounted, hnumber⟩
      refine ih (s.seed x) (fun y hy => hall y (List.mem_cons_of_mem _ hy)) ⟨hfiled.seed x, ?_, ?_⟩
      · exact hcounted.seed (hall x List.mem_cons_self)
      · cases x <;> exact hnumber
  refine hfold seeds _ (fun _ hx => hx) ⟨⟨?_, ?_⟩, ?_, rfl⟩
  · exact fun _ _ h => nomatch h
  · exact fun _ _ h => nomatch h
  · exact fun _ _ h => nomatch h

end Beginning

/-! ## 3. What is carried out -/

section Steps

variable {seeds : List Seed} {now : Instant} {s s' : Store} {o : Order} {r : Http.Response}

theorem Done.filed (h : Filed s) (hdone : Done now s o s' r) : Filed s' := by
  cases hdone with
  | organizationCreated given nonempty free => exact h.withOrganization _
  | workspaceCreated known given nonempty free => exact h.insertWorkspace rfl _
  | organizationDeleted known =>
    exact ⟨fun name o ho => h.organizations name o (Keyed.find?_erase_eq_some_iff.1 ho).2,
      fun id w hw => h.workspaces id w (Keyed.find?_filter_eq_some_iff.1 hw).1⟩
  | workspaceDeleted found stored =>
    exact ⟨h.organizations, fun id w hw => h.workspaces id w (Keyed.find?_erase_eq_some_iff.1 hw).2⟩
  | @lockSet id locked w found other =>
    exact h.insertWorkspace (w := setLocked w locked) (h.workspaces id w found) s.nextNumber

theorem Done.counted (h : Counted seeds s) (hdone : Done now s o s' r) : Counted seeds s' := by
  cases hdone with
  | organizationCreated given nonempty free => exact h
  | workspaceCreated known given nonempty free =>
    intro id w hw
    rcases Keyed.find?_insert_eq_some_iff.1 hw with ⟨rfl, -⟩ | ⟨-, hbefore⟩
    · exact .inr ⟨s.nextNumber, Nat.lt_succ_self _, rfl⟩
    · exact (h id w hbefore).imp_right fun ⟨n, hn, hid⟩ => ⟨n, Nat.lt_succ_of_lt hn, hid⟩
  | organizationDeleted known => exact fun id w hw => h id w (Keyed.find?_filter_eq_some_iff.1 hw).1
  | workspaceDeleted found stored => exact fun id w hw => h id w (Keyed.find?_erase_eq_some_iff.1 hw).2
  | lockSet found other =>
    intro id' w' hw'
    rcases Keyed.find?_insert_eq_some_iff.1 hw' with ⟨rfl, -⟩ | ⟨-, hbefore⟩
    · exact h id' _ found
    · exact h id' w' hbefore

/-- **Only what was there at the beginning can have the next id.** -/
theorem Counted.seeded_of_next (h : Counted seeds s) {w : Resource Workspace}
    (hw : s.workspaces.find? (workspaceId s.nextNumber) = some w) :
    ∃ v, .workspace v ∈ seeds ∧ v.id = workspaceId s.nextNumber := by
  rcases h _ w hw with hseed | ⟨n, hlt, hid⟩
  · exact hseed
  · rw [workspaceId_injective hid] at hlt
    exact absurd hlt (Nat.lt_irrefl n)

/-- What is kept is not the new workspace, and stays where it is if its place is another. -/
theorem Done.replaces (hfiled : Filed s) {organization : String} {fields : newWorkspaceFields.Record}
    (hdone : Done now s (.createWorkspace organization fields) s' r) {lost : Resource Workspace}
    (hlost : s.workspaces.find? (workspaceId s.nextNumber) = some lost) : lost ∉ s'.workspaces.values := by
  cases hdone with
  | @workspaceCreated _ name _ known given nonempty free =>
    intro hmem
    obtain ⟨id, hid⟩ := (Keyed.mem_values_iff _ _).1 hmem
    rcases Keyed.find?_insert_eq_some_iff.1 hid with ⟨-, rfl⟩ | ⟨hother, hbefore⟩
    · -- nobody in the organization had the new name
      exact Store.findWorkspace?_eq_none_iff.1 free _ _ hlost (Store.owner?_of_ownedBy rfl) rfl
    · apply hother
      rw [← hfiled.workspaces id lost hbefore]
      exact hfiled.workspaces _ lost hlost

end Steps

/-! ## 4. Creations -/

/-- **A creation takes the next id or a free name.**  Whatever a service began with, and
    whatever was asked for since then:
    a workspace that is created gets the id of the next number, all that is kept under
    other ids stays as it is, and so do the organizations.  If the id is free, there is
    exactly one entry more.  If not, the workspace that was kept there has been there from
    the beginning and is lost, and there are no more entries than before.
    An organization that is created is exactly one entry more, under a name that no other
    one goes by, and the workspaces stay as they are. -/
theorem creation_adds_or_replaces (token : Option String) (limit : Option UInt32) (version : String)
    (seeds : List Seed) (arrivals : List Arrival) (a : Arrival) {o : Order} {r : Http.Response} :
    let start := Store.seeded token limit version seeds
    let s := after start arrivals
    let s' := (handle a.1 a.2 s).1
    deed? (a.2, (handle a.1 a.2 s).2) = some (o, r) →
    (∀ organization fields, o = .createWorkspace organization fields →
      let id := workspaceId (1 + creations (deeds (exchanges start arrivals)))
      ∃ name, fields.1 = some name ∧
        let w := newWorkspace a.1 id organization name fields
        r = single 201 w ∧ s'.organizations = s.organizations ∧ s'.workspaces.find? id = some w ∧
        (∀ other, other ≠ id → s'.workspaces.find? other = s.workspaces.find? other) ∧
        (s.workspaces.find? id = none → Keyed.Adds s.workspaces s'.workspaces id w ∧
          ∀ v ∈ s.workspaces.values, v.id ≠ id) ∧
        ∀ lost, s.workspaces.find? id = some lost →
          (∃ v, .workspace v ∈ seeds ∧ v.id = id) ∧ lost ∉ s'.workspaces.values ∧
            s'.workspaces.keys = s.workspaces.keys) ∧
    ∀ fields, o = .createOrganization fields → ∃ name, fields.1 = some name ∧
      let new := newOrganization a.1 name fields
      r = single 201 new ∧ s'.workspaces = s.workspaces ∧
      Keyed.Adds s.organizations s'.organizations name new ∧
      ∀ other ∈ s.organizations.values, other.id ≠ name := by
  intro start s s' hdeed
  obtain ⟨hfiled, hcounted, hnumber⟩ := seeded_spec token limit version seeds
  obtain ⟨hfiled, hcounted⟩ : Filed s ∧ Counted seeds s :=
    deeds_induction (P := fun s _ => Filed s ∧ Counted seeds s) ⟨hfiled, hcounted⟩
      (fun h hdone => ⟨hdone.filed h.1, hdone.counted h.2⟩) arrivals
  have hnext : s.nextNumber = 1 + creations (deeds (exchanges start arrivals)) := by
    rw [(granted_ids start arrivals).1, hnumber]
  rw [← hnext]
  -- the deed is what was carried out now
  have hdone : Done a.1 s o s' r := by
    rcases handle_cases a.1 a.2 s with ⟨o', hdeed', hdone⟩ | ⟨hnone, -⟩
    · rw [hdeed] at hdeed'
      cases hdeed'
      exact hdone
    · rw [hdeed] at hnone
      cases hnone
  clear_value s'
  constructor
  · rintro organization fields rfl
    have hlost := fun lost => @Done.replaces a.1 s s' r hfiled organization fields hdone lost
    cases hdone with
    | @workspaceCreated _ name _ known given nonempty free =>
      refine ⟨name, given, rfl, rfl, ?_, ?_, ?_, ?_⟩
      · exact (Keyed.find?_insert _ _ _ _).trans (if_pos rfl)
      · intro other hother
        exact (Keyed.find?_insert _ _ _ _).trans (if_neg hother)
      · intro hfree
        refine ⟨Keyed.adds_insert hfree, fun v hv hid => ?_⟩
        obtain ⟨key, hkey⟩ := (Keyed.mem_values_iff _ _).1 hv
        rw [← hid, hfiled.workspaces key v hkey, hkey] at hfree
        cases hfree
      · intro lost hstored
        refine ⟨hcounted.seeded_of_next hstored, hlost lost hstored, Keyed.keys_insert ?_⟩
        exact Option.isSome_of_eq_some hstored
  · rintro fields rfl
    cases hdone with
    | @organizationCreated _ name given nonempty free =>
      refine ⟨name, given, rfl, rfl, Keyed.adds_insert free, fun other hother hid => ?_⟩
      obtain ⟨key, hkey⟩ := (Keyed.mem_values_iff _ _).1 hother
      rw [← hid, hfiled.organizations key other hkey, hkey] at free
      cases free

/-! ### A number that is taken -/

/-- A workspace under the first id that the service itself will give out. -/
def crowdingWorkspace : Resource Workspace := exampleWorkspace (workspaceId 1) "acme" "app"

def crowdedStore : Store :=
  .seeded none none "2.6" [.organization (exampleOrganization "acme"), .workspace crowdingWorkspace]

/-- What is sent for a new workspace of the name `web`. -/
def webFields : newWorkspaceFields.Record := (some "web", none, none, none, none, [], ())

theorem errand_web : Errand.of (requestNew "web") = .order (.createWorkspace "acme" webFields) := by
  decide +kernel

theorem handle_web (now : Instant) : handle now (requestNew "web") crowdedStore =
    (Store.withWorkspace { crowdedStore with nextNumber := 2 }
        (newWorkspace now (workspaceId 1) "acme" "web" webFields),
      single 201 (newWorkspace now (workspaceId 1) "acme" "web" webFields)) := by
  have hknown : (crowdedStore.organizations.find? "acme").isSome = true := by
    decide +kernel
  have hfree : crowdedStore.findWorkspace? "acme" "web" = none := by
    cbv
  rw [handle_of_order errand_web]
  have hgiven : webFields.1 = some "web" := rfl
  exact obey_create now hknown hgiven (by decide) hfree

theorem isDone_created {α : Type} [Attributes α] (x : Resource α) : isDone (single 201 x) = true := rfl

/-- The ids of all workspaces, with their names. -/
def Store.names (s : Store) : List (String × String) :=
  s.workspaces.entries.map fun e => (e.1, e.2.attributes.name)

/-- **A workspace can be lost to a new one.**  It had an id from the beginning that was
    not given out yet. -/
theorem crowding_workspace_lost :
    let now := onTheHour 0 ((Date.of? 2024 1 1).get rfl)
    let result := handle now (requestNew "web") crowdedStore
    isDone result.2 = true ∧ crowdedStore.names = [("ws-0000000000000001", "app")] ∧
      result.1.names = [("ws-0000000000000001", "web")] := by
  intro now result
  have hresult : result = _ := handle_web now
  rw [hresult]
  exact ⟨isDone_created _, by decide +kernel, by decide +kernel⟩

/-- The same, as the general statement has it. -/
theorem crowding_workspace_replaced :
    let now := onTheHour 0 ((Date.of? 2024 1 1).get rfl)
    let w := newWorkspace now (workspaceId 1) "acme" "web" webFields
    deed? (requestNew "web", (handle now (requestNew "web") crowdedStore).2) =
        some (.createWorkspace "acme" webFields, single 201 w) ∧
      crowdingWorkspace ∉ (handle now (requestNew "web") crowdedStore).1.workspaces.values := by
  intro now w
  have hdeed : deed? (requestNew "web", (handle now (requestNew "web") crowdedStore).2) =
      some (.createWorkspace "acme" webFields, single 201 w) := by
    rw [deed?_of_order errand_web, handle_web]
    exact if_pos (isDone_created _)
  obtain ⟨hworkspace, -⟩ := creation_adds_or_replaces none none "2.6"
    [.organization (exampleOrganization "acme"), .workspace crowdingWorkspace] [] (now, requestNew "web") hdeed
  obtain ⟨name, -, -, -, -, -, -, hlost⟩ := hworkspace "acme" webFields rfl
  exact ⟨hdeed, (hlost crowdingWorkspace (by cbv)).2.1⟩

end Simulator
end TerraformCloud
