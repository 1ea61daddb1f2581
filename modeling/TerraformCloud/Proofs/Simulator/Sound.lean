/-
  TerraformCloud/Proofs/Simulator/Sound.lean
  ==========================================
  **What holds of the data, whatever is asked.**

  Organizations are kept under their names and workspaces under their ids.  Every
  workspace belongs to an organization that is there, and no other workspace of that
  organization has its name.  A number that was given out is below the next one, so the
  id of a new workspace is free.  Each of this is needed for the next: that names are
  taken once needs the organization to take its workspaces along when it goes, and that
  a new workspace takes nobody's place needs its id to be free (`Done.sound`).

  Since this holds at first (`IsFresh.sound`), it holds at all times, and what becomes of a
  single workspace is one of a few fates: it is left alone, created, removed or locked
  (`Done.fate`).
-/
import TerraformCloud.Proofs.Simulator.Errands
import TerraformCloud.Proofs.Text.Digits

namespace TerraformCloud.Simulator

/-! ## 1. Ids -/

theorem toList_workspaceId (n : Nat) : (workspaceId n).toList =
    "ws-".toList ++ (List.replicate (16 - (Nat.toDigits 10 n).length) '0' ++ Nat.toDigits 10 n) := by
  simp [workspaceId]

/-- **Different numbers give different ids.** -/
theorem workspaceId_injective : Function.Injective workspaceId := by
  intro m n h
  have hlists := congrArg String.toList h
  rw [toList_workspaceId, toList_workspaceId, List.append_cancel_left_eq] at hlists
  have hnumbers := congrArg natOfDigits hlists
  rwa [natOfDigits_zeros_append, natOfDigits_zeros_append, natOfDigits_toDigits,
    natOfDigits_toDigits] at hnumbers

theorem isDigit_workspaceId (n : Nat) : ((workspaceId n).toList.drop 3).all Char.isDigit = true := by
  rw [toList_workspaceId, List.drop_left' (by decide)]
  apply List.all_eq_true.2
  intro c hc
  rcases List.mem_append.1 hc with hzero | hdigit
  · rw [List.eq_of_mem_replicate hzero]
    rfl
  · exact isDigit_of_mem hdigit

/-! ## 2. Looking up -/

namespace Store

variable {s : Store} {organization name : String} {w : Resource Workspace}

@[simp] theorem owner?_of_ownedBy (h : w.relationships = ownedBy organization) :
    owner? w = some organization := by
  rw [owner?, Resource.relatedId?, h]
  rfl

theorem mem_workspacesOf :
    w ∈ s.workspacesOf organization ↔
      (∃ id, s.workspaces.find? id = some w) ∧ owner? w = some organization := by
  rw [workspacesOf, List.mem_mergeSort, List.mem_filter, decide_eq_true_iff, Keyed.mem_values_iff]

theorem findWorkspace?_some (h : s.findWorkspace? organization name = some w) :
    (∃ id, s.workspaces.find? id = some w) ∧ owner? w = some organization ∧
      w.attributes.name = name := by
  obtain ⟨hstored, howner⟩ := mem_workspacesOf.1 (List.mem_of_find?_eq_some h)
  exact ⟨hstored, howner, by simpa using List.find?_some h⟩

theorem findWorkspace?_eq_none_iff :
    s.findWorkspace? organization name = none ↔
      ∀ id w, s.workspaces.find? id = some w → owner? w = some organization →
        w.attributes.name ≠ name := by
  rw [findWorkspace?, List.find?_eq_none]
  constructor
  · intro h id w hstored howner
    simpa using h w (mem_workspacesOf.2 ⟨⟨id, hstored⟩, howner⟩)
  · intro h w hw
    obtain ⟨⟨id, hstored⟩, howner⟩ := mem_workspacesOf.1 hw
    simpa using h id w hstored howner

end Store

open Store (owner?)

/-! ## 3. Soundness -/

/-- What holds of the data at all times. -/
structure Sound (s : Store) : Prop where
  named : ∀ name o, s.organizations.find? name = some o → o.id = name ∧ o.attributes.name = name
  keyed : ∀ id w, s.workspaces.find? id = some w → w.id = id
  owned : ∀ id w, s.workspaces.find? id = some w →
    ∃ organization, (s.organizations.find? organization).isSome = true ∧
      w.relationships = ownedBy organization
  apart : ∀ id id' w w', s.workspaces.find? id = some w → s.workspaces.find? id' = some w' →
    owner? w = owner? w' → w.attributes.name = w'.attributes.name → id = id'
  numbered : ∀ n w, s.workspaces.find? (workspaceId n) = some w → n < s.nextNumber

namespace Sound

variable {s : Store}

/-- **A name leads to the one workspace that has it.** -/
theorem findWorkspace?_eq_some_iff (h : Sound s) {organization name : String}
    {w : Resource Workspace} : s.findWorkspace? organization name = some w ↔
      s.workspaces.find? w.id = some w ∧ owner? w = some organization ∧ w.attributes.name = name := by
  constructor
  · intro hfound
    obtain ⟨⟨id, hstored⟩, hrest⟩ := Store.findWorkspace?_some hfound
    rw [h.keyed id w hstored]
    exact ⟨hstored, hrest⟩
  · rintro ⟨hstored, howner, hname⟩
    cases hfound : s.findWorkspace? organization name with
    | none => exact absurd hname (Store.findWorkspace?_eq_none_iff.1 hfound _ w hstored howner)
    | some w' =>
      obtain ⟨⟨id, hstored'⟩, howner', hname'⟩ := Store.findWorkspace?_some hfound
      have hid := h.apart id w.id w' w hstored' hstored (howner'.trans howner.symm)
        (hname'.trans hname.symm)
      rw [hid, hstored] at hstored'
      exact hstored'.symm

theorem empty : Sound .empty where
  named _ _ h := nomatch h
  keyed _ _ h := nomatch h
  owned _ _ h := nomatch h
  apart _ _ _ _ h := nomatch h
  numbered _ _ h := nomatch h

theorem withOrganization (h : Sound s) {o : Resource Organization} (hname : o.attributes.name = o.id) :
    Sound (s.withOrganization o) where
  named name o' ho' := by
    rcases Keyed.find?_insert_eq_some_iff.1 ho' with ⟨rfl, rfl⟩ | ⟨-, hbefore⟩
    · exact ⟨rfl, hname⟩
    · exact h.named name o' hbefore
  keyed := h.keyed
  owned id w hw := by
    obtain ⟨organization, hknown, howner⟩ := h.owned id w hw
    refine ⟨organization, ?_, howner⟩
    rw [Store.withOrganization, Keyed.find?_insert]
    split
    · rfl
    · exact hknown
  apart := h.apart
  numbered := h.numbered

/-- A workspace of a known organization may be added, or changed, where no other one
    has its name. -/
theorem withWorkspace (h : Sound s) {w : Resource Workspace} {organization : String} {next : Nat}
    (hknown : (s.organizations.find? organization).isSome = true)
    (howner : w.relationships = ownedBy organization)
    (hfree : ∀ id w', s.workspaces.find? id = some w' → owner? w' = some organization →
      w'.attributes.name = w.attributes.name → id = w.id)
    (hnext : s.nextNumber ≤ next) (hnumber : ∀ n, workspaceId n = w.id → n < next) :
    Sound (Store.withWorkspace { s with nextNumber := next } w) where
  named := h.named
  keyed id w' hw' := by
    rcases Keyed.find?_insert_eq_some_iff.1 hw' with ⟨rfl, rfl⟩ | ⟨-, hbefore⟩
    · rfl
    · exact h.keyed id w' hbefore
  owned id w' hw' := by
    rcases Keyed.find?_insert_eq_some_iff.1 hw' with ⟨-, rfl⟩ | ⟨-, hbefore⟩
    · exact ⟨organization, hknown, howner⟩
    · exact h.owned id w' hbefore
  apart id id' v v' hv hv' hsameOwner hsameName := by
    have hw : owner? w = some organization := Store.owner?_of_ownedBy howner
    -- two others are apart as before, and none of them has the new name under another id
    rcases Keyed.find?_insert_eq_some_iff.1 hv with ⟨rfl, rfl⟩ | ⟨-, hbefore⟩ <;>
      rcases Keyed.find?_insert_eq_some_iff.1 hv' with ⟨rfl, rfl⟩ | ⟨-, hbefore'⟩
    · rfl
    · exact (hfree id' v' hbefore' (hsameOwner ▸ hw) hsameName.symm).symm
    · exact hfree id v hbefore (hsameOwner.trans hw) hsameName
    · exact h.apart id id' v v' hbefore hbefore' hsameOwner hsameName
  numbered n v hv := by
    rcases Keyed.find?_insert_eq_some_iff.1 hv with ⟨hid, -⟩ | ⟨-, hbefore⟩
    · exact hnumber n hid
    · exact Nat.lt_of_lt_of_le (h.numbered n v hbefore) hnext

/-- Workspaces may be taken out, and organizations together with theirs. -/
theorem restrict (h : Sound s) {organizations : Keyed (Resource Organization)}
    {workspaces : Keyed (Resource Workspace)}
    (horganizations : ∀ name o, organizations.find? name = some o → s.organizations.find? name = some o)
    (hworkspaces : ∀ id w, workspaces.find? id = some w → s.workspaces.find? id = some w)
    (howners : ∀ id w name, workspaces.find? id = some w → owner? w = some name →
      organizations.find? name = s.organizations.find? name) :
    Sound { s with organizations, workspaces } where
  named name o ho := h.named name o (horganizations name o ho)
  keyed id w hw := h.keyed id w (hworkspaces id w hw)
  owned id w hw := by
    obtain ⟨organization, hknown, howner⟩ := h.owned id w (hworkspaces id w hw)
    refine ⟨organization, ?_, howner⟩
    rw [howners id w organization hw (Store.owner?_of_ownedBy howner)]
    exact hknown
  apart id id' w w' hw hw' := h.apart id id' w w' (hworkspaces id w hw) (hworkspaces id' w' hw')
  numbered n w hw := h.numbered n w (hworkspaces _ w hw)

theorem of_same {s' : Store} (h : Sound s) (horganizations : s'.organizations = s.organizations)
    (hworkspaces : s'.workspaces = s.workspaces) (hnext : s'.nextNumber = s.nextNumber) : Sound s' := by
  constructor
  · rw [horganizations]
    exact h.named
  · rw [hworkspaces]
    exact h.keyed
  · rw [horganizations, hworkspaces]
    exact h.owned
  · rw [hworkspaces]
    exact h.apart
  · rw [hworkspaces, hnext]
    exact h.numbered

/-- **The next id is free.** -/
theorem find?_next (h : Sound s) : s.workspaces.find? (workspaceId s.nextNumber) = none := by
  cases hstored : s.workspaces.find? (workspaceId s.nextNumber) with
  | none => rfl
  | some w => exact absurd (h.numbered _ w hstored) (Nat.lt_irrefl _)

end Sound

/-- **Whatever is carried out leaves the data sound.** -/
theorem Done.sound {now : Instant} {s s' : Store} {o : Order} {r : Http.Response} (h : Sound s)
    (hdone : Done now s o s' r) : Sound s' := by
  cases hdone with
  | organizationCreated given nonempty free => exact h.withOrganization rfl
  | @workspaceCreated organization name fields known given nonempty free =>
    refine h.withWorkspace known rfl ?_ (Nat.le_succ _) ?_
    · intro id w' hstored howner hname
      exact absurd hname (Store.findWorkspace?_eq_none_iff.1 free id w' hstored howner)
    · intro n hn
      rw [workspaceId_injective hn]
      exact Nat.lt_succ_self _
  | @organizationDeleted name known =>
    refine h.restrict ?_ ?_ ?_
    · exact fun other o ho => (Keyed.find?_erase_eq_some_iff.1 ho).2
    · exact fun id w hw => (Keyed.find?_filter_eq_some_iff.1 hw).1
    · -- whatever is left belongs to an organization that is left
      intro id w other hw howner
      have hother := (Keyed.find?_filter_eq_some_iff.1 hw).2
      rw [Keyed.find?_erase, if_neg]
      rintro rfl
      exact absurd howner (by simpa using hother)
  | workspaceDeleted found stored =>
    refine h.restrict (fun _ _ ho => ho) ?_ (fun _ _ _ _ _ => rfl)
    exact fun id w hw => (Keyed.find?_erase_eq_some_iff.1 hw).2
  | @lockSet id locked w found other =>
    obtain ⟨organization, hknown, howner⟩ := h.owned id w found
    obtain rfl := h.keyed id w found
    refine h.withWorkspace (w := setLocked w locked) hknown howner ?_ (Nat.le_refl _) ?_
    · intro id w' hstored howner' hname
      have hw : owner? w = some organization := Store.owner?_of_ownedBy howner
      exact h.apart id w.id w' w hstored found (howner'.trans hw.symm) hname
    · intro n hn
      have hid : workspaceId n = w.id := hn
      rw [← hid] at found
      exact h.numbered n w found

/-! ## 4. Where a service begins -/

/-- A service that has just begun, with no data or with the example data. -/
structure IsFresh (s : Store) : Prop where
  data : (s.organizations = .empty ∧ s.workspaces = .empty) ∨
    (s.organizations = exampleStore.organizations ∧ s.workspaces = exampleStore.workspaces)
  number : s.nextNumber = 1

theorem isFresh_empty : IsFresh .empty := ⟨.inl ⟨rfl, rfl⟩, rfl⟩

theorem isFresh_exampleStore : IsFresh exampleStore := ⟨.inr ⟨rfl, rfl⟩, rfl⟩

theorem sound_exampleStore : Sound exampleStore := by
  have hletters : ∀ (n : Nat) (id : String), ((id.toList.drop 3).all Char.isDigit) = false →
      workspaceId n ≠ id := by
    rintro n id hletter rfl
    rw [isDigit_workspaceId] at hletter
    cases hletter
  have horganizations := (Sound.empty.withOrganization (o := exampleOrganization "acme") rfl).withOrganization
    (o := exampleOrganization "globex") rfl
  have hfirst := horganizations.withWorkspace
    (w := exampleWorkspace "ws-prodnet000000001" "acme" "prod-network")
    (by decide) rfl (fun id w' hw' => nomatch hw') (Nat.le_refl 1)
    (fun n hn => absurd hn (hletters n _ (by decide)))
  refine hfirst.withWorkspace (w := setLocked (exampleWorkspace "ws-stageapp0000001" "acme" "staging-app") true)
    (by decide) rfl ?_ (Nat.le_refl 1) (fun n hn => absurd hn (hletters n _ (by decide)))
  intro id w' hw' howner hname
  rcases Keyed.find?_insert_eq_some_iff.1 hw' with ⟨-, rfl⟩ | ⟨-, hnone⟩
  · exact absurd hname (by decide)
  · cases hnone

theorem IsFresh.sound {s : Store} (h : IsFresh s) : Sound s := by
  rcases h.data with ⟨horganizations, hworkspaces⟩ | ⟨horganizations, hworkspaces⟩
  · exact Sound.empty.of_same horganizations hworkspaces h.number
  · exact sound_exampleStore.of_same horganizations hworkspaces h.number

/-! ## 5. What becomes of a workspace -/

/-- Whether an order takes the workspace of this name out, by itself or along with its
    organization. -/
def Order.removes (organization name : String) : Order → Bool
  | deleteOrganization owner => owner = organization
  | deleteWorkspace owner other => owner = organization && other = name
  | _ => false

/-- What an order that is carried out does to the place of an id: what was kept there
    before, and what is kept afterwards. -/
inductive Fate (now : Instant) (s : Store) (o : Order) (id : String) :
    Option (Resource Workspace) → Option (Resource Workspace) → Prop where
  | untouched {x : Option (Resource Workspace)} (other : ∀ locked, o ≠ .setLock id locked) :
      Fate now s o id x x
  | created {organization name : String} {fields : newWorkspaceFields.Record}
      (order : o = .createWorkspace organization fields) (next : id = workspaceId s.nextNumber)
      (given : fields.1 = some name) :
      Fate now s o id none (some (newWorkspace now id organization name fields))
  | removed {organization name : String} {w : Resource Workspace}
      (owner : owner? w = some organization) (named : w.attributes.name = name)
      (order : o.removes organization name = true) : Fate now s o id (some w) none
  | locked {locked : Bool} {w : Resource Workspace} (order : o = .setLock id locked)
      (flipped : w.attributes.locked ≠ locked) : Fate now s o id (some w) (some (setLocked w locked))

/-- **Every order leaves each workspace to one of these fates.** -/
theorem Done.fate {now : Instant} {s s' : Store} {o : Order} {r : Http.Response} (h : Sound s)
    (hdone : Done now s o s' r) (id : String) :
    Fate now s o id (s.workspaces.find? id) (s'.workspaces.find? id) := by
  cases hdone with
  | organizationCreated given nonempty free => exact .untouched nofun
  | @workspaceCreated organization name fields known given nonempty free =>
    rw [Store.withWorkspace, Keyed.find?_insert]
    split
    · next heq =>
      have hid : id = workspaceId s.nextNumber := heq
      rw [hid, h.find?_next]
      exact .created rfl rfl given
    · exact .untouched nofun
  | @organizationDeleted name known =>
    rw [Store.removeOrganization, Keyed.find?_filter]
    cases hstored : s.workspaces.find? id with
    | none => exact .untouched nofun
    | some w =>
      by_cases howner : owner? w = some name
      · rw [Option.filter_some_neg (by simpa using howner)]
        exact .removed howner rfl (by simp [Order.removes])
      · rw [Option.filter_some_pos (by simpa using howner)]
        exact .untouched nofun
  | @workspaceDeleted organization name w found stored =>
    obtain ⟨hstored, howner, hname⟩ := h.findWorkspace?_eq_some_iff.1 found
    rw [Keyed.find?_erase]
    split
    · next heq =>
      rw [heq, hstored]
      exact .removed howner hname (by simp [Order.removes])
    · exact .untouched nofun
  | @lockSet other locked w found flipped =>
    rw [Keyed.find?_insert]
    split
    · next heq =>
      rw [heq, found]
      exact .locked rfl flipped
    · next hne =>
      refine .untouched fun b heq => hne ?_
      cases heq
      rfl

end TerraformCloud.Simulator
