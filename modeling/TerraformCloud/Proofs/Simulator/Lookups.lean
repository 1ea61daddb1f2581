/-
  TerraformCloud/Proofs/Simulator/Lookups.lean
  ============================================
  **One name, one workspace, whichever way it is looked up.**

  Where the data comes from elsewhere, several workspaces of an organization can have one
  name.  A name is looked up in two ways: in the list of the organization, by name, and, for
  a change, in all entries, by key.  Sorting by name keeps those of one name in the order of
  their keys, so that both ways lead to the same entry (`find?_listedEntries`), and it is the
  first one by key (`findEntry?_eq_some_iff`).  Hence a change is seen by whoever looks up the
  name afterwards (`findWorkspace?_changeWorkspace`), and where every workspace is kept under
  its id, taking out a name takes out this entry and no other (`lookups_agree`).
-/
import TerraformCloud.Proofs.Simulator.Seeded
import TerraformCloud.Proofs.Simulator.Serving

namespace TerraformCloud.Simulator

open Store (owner? isNamed)

variable {s : Store} {organization name : String}

/-! ## 1. Two ways to look up a name -/

/-- The workspaces of an organization, by name, with the keys that they are kept under. -/
def listedEntries (s : Store) (organization : String) : List (String × Resource Workspace) :=
  (s.workspaces.entries.filter fun e => owner? e.2 = some organization).mergeSort
    (inOrder fun e => e.2.attributes.name)

/-- Without the keys, this is the list of the organization. -/
theorem map_listedEntries (s : Store) (organization : String) :
    (listedEntries s organization).map (·.2) = s.workspacesOf organization := by
  calc (listedEntries s organization).map (·.2)
    _ = ((s.workspaces.entries.filter fun e => owner? e.2 = some organization).map (·.2)).mergeSort
          (inOrder fun w => w.attributes.name) := List.map_mergeSort fun _ _ _ _ => rfl
    _ = s.workspacesOf organization := by
      rw [Store.workspacesOf, Keyed.values, List.filter_map]
      rfl

/-- **The list leads to the entry that is changed.** -/
theorem find?_listedEntries (s : Store) (organization name : String) :
    (listedEntries s organization).find? (fun e => e.2.attributes.name = name) =
      s.findEntry? organization name := by
  rw [listedEntries, find?_mergeSort, List.find?_filter, Store.findEntry?]
  simp only [isNamed, decide_eq_true_eq, Bool.decide_and]

theorem findWorkspace?_eq_map (s : Store) (organization name : String) :
    s.findWorkspace? organization name = (s.findEntry? organization name).map (·.2) := by
  rw [Store.findWorkspace?, ← map_listedEntries, List.find?_map, ← find?_listedEntries]
  rfl

/-- **A name leads to the first workspace that has it**, by id. -/
theorem findWorkspace?_eq_find? (s : Store) (organization name : String) :
    s.findWorkspace? organization name = s.workspaces.values.find? (isNamed organization name) := by
  rw [findWorkspace?_eq_map, Store.findEntry?, Keyed.values, List.find?_map]
  rfl

/-! ## 2. The entry of a name -/

theorem findEntry?_eq_some_iff {key : String} {w : Resource Workspace} :
    s.findEntry? organization name = some (key, w) ↔
      s.workspaces.IsFirst (isNamed organization name) key w :=
  Keyed.find?_entries_eq_some_iff

theorem findEntry?_eq_none_iff :
    s.findEntry? organization name = none ↔
      ∀ key w, s.workspaces.find? key = some w → isNamed organization name w = false :=
  Keyed.find?_entries_eq_none_iff

/-- **What was changed is found.**  The change may be anything that leaves the name. -/
theorem findWorkspace?_changeWorkspace {f : Workspace → Workspace} (hname : ∀ a, (f a).name = a.name)
    {id : String} {s' : Store} (h : s.changeWorkspace organization name f = some (id, s')) :
    s'.findWorkspace? organization name =
      (s.findWorkspace? organization name).map fun w => { w with attributes := f w.attributes } := by
  rw [Store.changeWorkspace] at h
  rw [findWorkspace?_eq_map, findWorkspace?_eq_map]
  cases hfound : s.findEntry? organization name with
  | none =>
    rw [hfound] at h
    cases h
  | some e =>
    obtain ⟨key, w⟩ := e
    rw [hfound] at h
    cases h
    have hbefore := findEntry?_eq_some_iff.1 hfound
    have hnamed : isNamed organization name { w with attributes := f w.attributes } = true := by
      rw [← hbefore.passes, isNamed, isNamed, hname]
      rfl
    rw [findEntry?_eq_some_iff.2 (hbefore.insert hnamed)]
    rfl

/-! ## 3. Taking out the workspace of a name -/

/-- Exactly one workspace is taken out. -/
def WithoutWorkspace (id : String) (s s' : Store) : Prop :=
  ∃ workspaces, s' = { s with workspaces } ∧
    ∀ key, workspaces.find? key = if key = id then none else s.workspaces.find? key

theorem withoutWorkspace (s : Store) (id : String) :
    WithoutWorkspace id s { s with workspaces := s.workspaces.erase id } :=
  ⟨_, rfl, by simp⟩

theorem removeWorkspace_of_none (h : s.findEntry? organization name = none) :
    s.removeWorkspace organization name = (none, s) := by
  rw [Store.removeWorkspace, findWorkspace?_eq_map, h]
  rfl

/-- What is taken out is kept under the id of the workspace that was found: this need not be
    the key that it was found under. -/
theorem removeWorkspace_of_some {key : String} {w : Resource Workspace}
    (h : s.findEntry? organization name = some (key, w)) :
    s.removeWorkspace organization name =
      (s.workspaces.find? w.id, { s with workspaces := s.workspaces.erase w.id }) := by
  rw [Store.removeWorkspace, findWorkspace?_eq_map, h]
  rfl

/-- **Both lookups lead to the same entry**, the first one by key that has the name, or both
    lead to nothing.  Where all workspaces are kept under their ids, this entry is the one that
    is taken out. -/
theorem lookups_agree (s : Store) (organization name : String) :
    (listedEntries s organization).map (·.2) = s.workspacesOf organization ∧
      (listedEntries s organization).find? (fun e => e.2.attributes.name = name) =
        s.findEntry? organization name ∧
      s.findWorkspace? organization name = (s.findEntry? organization name).map (·.2) ∧
      match s.findEntry? organization name with
      | none =>
        (∀ key w, s.workspaces.find? key = some w → isNamed organization name w = false) ∧
          s.removeWorkspace organization name = (none, s)
      | some (key, w) =>
        s.workspaces.IsFirst (isNamed organization name) key w ∧
          ((∀ id v, s.workspaces.find? id = some v → v.id = id) →
            ∃ s', s.removeWorkspace organization name = (some w, s') ∧ WithoutWorkspace key s s') := by
  refine ⟨map_listedEntries s organization, find?_listedEntries s organization name,
    findWorkspace?_eq_map s organization name, ?_⟩
  cases hfound : s.findEntry? organization name with
  | none => exact ⟨findEntry?_eq_none_iff.1 hfound, removeWorkspace_of_none hfound⟩
  | some e =>
    obtain ⟨key, w⟩ := e
    have hfirst := findEntry?_eq_some_iff.1 hfound
    refine ⟨hfirst, fun hkept => ?_⟩
    have hid : w.id = key := hkept key w hfirst.stored
    rw [removeWorkspace_of_some hfound, hid, hfirst.stored]
    exact ⟨_, rfl, withoutWorkspace s key⟩

/-- A service that begins with two workspaces of one name in an organization, and with one of
    that name in another organization. -/
def twinStore : Store :=
  .seeded none none "2.6"
    [.workspace (exampleWorkspace "ws-2" "acme" "app"),
      .workspace (exampleWorkspace "ws-1" "acme" "app"),
      .workspace (exampleWorkspace "ws-0" "globex" "app")]

/-- Of two workspaces with one name, the first one by id is found and taken out. -/
theorem first_twin_removed :
    (∀ id v, twinStore.workspaces.find? id = some v → v.id = id) ∧
      twinStore.findWorkspace? "acme" "app" = some (exampleWorkspace "ws-1" "acme" "app") ∧
      twinStore.findEntry? "acme" "app" = some ("ws-1", exampleWorkspace "ws-1" "acme" "app") ∧
      ∃ s', twinStore.removeWorkspace "acme" "app" =
          (some (exampleWorkspace "ws-1" "acme" "app"), s') ∧
        s'.workspaces.find? "ws-1" = none ∧
        s'.workspaces.find? "ws-2" = some (exampleWorkspace "ws-2" "acme" "app") ∧
        s'.workspaces.find? "ws-0" = some (exampleWorkspace "ws-0" "globex" "app") := by
  have hkept : ∀ id v, twinStore.workspaces.find? id = some v → v.id = id :=
    (seeded_spec ..).1.workspaces
  have hentry : twinStore.findEntry? "acme" "app" =
      some ("ws-1", exampleWorkspace "ws-1" "acme" "app") := rfl
  obtain ⟨-, -, hfound, hrest⟩ := lookups_agree twinStore "acme" "app"
  rw [hentry] at hfound hrest
  obtain ⟨-, hremoved⟩ := hrest
  obtain ⟨s', hresult, workspaces, rfl, hleft⟩ := hremoved hkept
  refine ⟨hkept, hfound, hentry, _, hresult, ?_, ?_, ?_⟩
  · rw [hleft, if_pos rfl]
  · rw [hleft, if_neg (by decide)]
    rfl
  · rw [hleft, if_neg (by decide)]
    rfl

end TerraformCloud.Simulator
