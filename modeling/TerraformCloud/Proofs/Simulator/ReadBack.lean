/-
  TerraformCloud/Proofs/Simulator/ReadBack.lean
  =============================================
  **What was created is read back, until it is deleted.**

  The service understands calls as they are meant, so as long as nobody locks, unlocks or
  deletes a workspace, or deletes its organization, the workspace is kept as it was created
  (`kept_after`), and every way to read it gives just that.  Once it is deleted, its id is
  never given out again (`Issued.after`), and its name is free until somebody creates it anew
  (`free_after`).

  Between the creation and the deletion anything may happen.  The workspace may even be
  deleted and another one take its name; but whatever has the id has the name, too, so
  whoever deletes the name leaves nothing behind under the id (`Issued.of_deleted`).
-/
import TerraformCloud.Proofs.Simulator.Listed

namespace TerraformCloud.Simulator

open Store (owner?)

/-! ## 1. What operations mean to a workspace -/

/-- Whether an operation locks, unlocks or deletes a workspace, or deletes its organization. -/
def disturbs (organization name id : String) : Operation → Bool
  | .organizations (.delete owner) => owner = organization
  | .workspaces (.delete owner other) => owner = organization && other = name
  | .workspaces (.deleteById other) | .workspaces (.lock other _) | .workspaces (.unlock other)
  | .workspaces (.forceUnlock other) => other = id
  | _ => false

/-- Whether an operation creates a workspace of this name in an organization. -/
def recreates (organization name : String) : Operation → Bool
  | .workspaces (.create owner o) => owner = organization && o.name = some name
  | _ => false

section Meaning

variable {op : Operation} {o : Order} {organization name id : String}

theorem Means.undisturbed (h : Means op o) (hop : disturbs organization name id op = false) :
    o.removes organization name = false ∧ ∀ locked, o ≠ .setLock id locked := by
  cases h <;> simp_all [disturbs, Order.removes]

theorem Means.creates (h : Means op o) (organization name : String) :
    o.creates organization name = recreates organization name op := by
  cases h <;> rfl

end Meaning

/-! ## 2. Until it is disturbed -/

section Kept

variable {s s' : Store} {w : Resource Workspace} {organization name : String}

/-- **A workspace is kept as it is** until it is disturbed. -/
theorem kept_after (h : Calls (fun x op => x.Reaches ∧ disturbs organization name w.id op = false) s s')
    (hs : Sound s) (howner : owner? w = some organization) (hname : w.attributes.name = name)
    (hstored : s.workspaces.find? w.id = some w) : s'.workspaces.find? w.id = some w := by
  refine (h.keeps (P := fun s => Sound s ∧ s.workspaces.find? w.id = some w) ⟨hs, hstored⟩ ?_).2
  intro x op o s' answer hkept hallowed hissues hdone
  obtain ⟨hsound, hstored⟩ := hkept
  obtain ⟨hx, hop⟩ := hallowed
  obtain ⟨hremoves, hlocks⟩ := (means_of_issues hx.path hx.scheme hissues).undisturbed hop
  have hfate := hdone.fate hsound w.id
  generalize hafter : s'.workspaces.find? w.id = found at hfate
  rw [hstored] at hfate
  refine ⟨hdone.sound hsound, ?_⟩
  cases hfate with
  | untouched other => rfl
  | locked order flipped => exact absurd order (hlocks _)
  | removed owner named order =>
    rw [owner, Option.some.injEq] at howner
    rw [howner, ← named, hname, hremoves] at order
    cases order

end Kept

/-! ## 3. Ids that were given out -/

/-- An id was given out, and what has it now, if anything has, has a property. -/
structure Issued (id : String) (P : Resource Workspace → Prop) (s : Store) : Prop where
  sound : Sound s
  number : ∃ n < s.nextNumber, workspaceId n = id
  holds : ∀ w, s.workspaces.find? id = some w → P w

namespace Issued

variable {id organization name : String} {P : Resource Workspace → Prop} {s s' : Store}

/-- No order gives the id out again. -/
theorem step {now : Instant} {o : Order} {r : Http.Response} (h : Issued id P s)
    (hlocked : ∀ w locked, P w → P (setLocked w locked)) (hdone : Done now s o s' r) : Issued id P s' := by
  obtain ⟨n, hn, hid⟩ := h.number
  constructor
  · exact hdone.sound h.sound
  · refine ⟨n, ?_, hid⟩
    rw [hdone.grants.2]
    exact Nat.lt_add_right _ hn
  · intro w hw
    have hfate := hdone.fate h.sound id
    rw [hw] at hfate
    generalize hbefore : s.workspaces.find? id = before at hfate
    cases hfate with
    | untouched other => exact h.holds w hbefore
    | locked order flipped => exact hlocked _ _ (h.holds _ hbefore)
    | created order next =>
      rw [next] at hid
      exact absurd (workspaceId_injective hid) (Nat.ne_of_lt hn)

/-- **The id is not given out again**, whatever is called. -/
theorem after {allowed : Caller → Operation → Prop} (h : Calls allowed s s')
    (hlocked : ∀ w locked, P w → P (setLocked w locked)) (hs : Issued id P s) : Issued id P s' :=
  h.keeps hs fun hs _ _ hdone => hs.step hlocked hdone

/-- What has the name has the id, so deleting the name leaves nothing under the id. -/
theorem of_deleted {now : Instant} {r : Http.Response}
    (h : Issued id (fun w => owner? w = some organization ∧ w.attributes.name = name) s)
    (hdone : Done now s (.deleteWorkspace organization name) s' r) :
    Issued id (fun _ => False) s' ∧ s'.isTaken organization name = false := by
  obtain ⟨n, hn, hid⟩ := h.number
  have hsound := hdone.sound h.sound
  cases hdone with
  | @workspaceDeleted _ _ v found stored =>
    obtain ⟨hstored, howner, hname⟩ := h.sound.findWorkspace?_eq_some_iff.1 found
    -- of all that is left nothing has the name
    have hfree : ∀ key w, (s.workspaces.erase v.id).find? key = some w →
        ¬(owner? w = some organization ∧ w.attributes.name = name) := by
      rintro key w hw ⟨howner', hname'⟩
      obtain ⟨hne, hbefore⟩ := Keyed.find?_erase_eq_some_iff.1 hw
      exact hne (h.sound.apart key v.id w v hbefore hstored (howner'.trans howner.symm)
        (hname'.trans hname.symm))
    refine ⟨⟨hsound, ⟨n, hn, hid⟩, ?_⟩, ?_⟩
    · intro w hw
      exact hfree id w hw (h.holds w (Keyed.find?_erase_eq_some_iff.1 hw).2)
    · rw [← Bool.not_eq_true, hsound.isTaken_iff]
      rintro ⟨w, hw, hnamed⟩
      exact hfree w.id w hw hnamed

end Issued

/-! ## 4. Names that are free -/

section Free

variable {s s' : Store} {organization name : String}

theorem Done.stays_free {now : Instant} {o : Order} {r : Http.Response} (h : Sound s)
    (hdone : Done now s o s' r) (hcreates : o.creates organization name = false)
    (hfree : s.isTaken organization name = false) : s'.isTaken organization name = false := by
  rw [← Bool.not_eq_true, (hdone.sound h).isTaken_iff]
  rintro ⟨w, hstored, howner, hname⟩
  rw [← Bool.not_eq_true, h.isTaken_iff] at hfree
  have hbefore : ∀ v, s.workspaces.find? w.id = some v → owner? v = some organization →
      v.attributes.name ≠ name := by
    intro v hv howner' hname'
    rw [← h.keyed _ v hv] at hv
    exact hfree ⟨v, hv, howner', hname'⟩
  -- what has the name had it before, or has just been created
  have hfate := hdone.fate h w.id
  rw [hstored] at hfate
  generalize w.id = id at hfate hbefore
  generalize s.workspaces.find? id = before at hfate hbefore
  cases hfate with
  | untouched other => exact hbefore w rfl howner hname
  | locked order flipped => exact hbefore _ rfl howner hname
  | @created owner other fields order next given =>
    rw [Store.owner?_of_ownedBy (newWorkspace_relationships _ _ _ _ _), Option.some.injEq] at howner
    have hother : other = name := hname
    rw [order, Order.creates, given, howner, hother] at hcreates
    simp at hcreates

/-- **A name stays free** until somebody creates a workspace of this name. -/
theorem free_after (h : Calls (fun x op => x.Reaches ∧ recreates organization name op = false) s s')
    (hs : Sound s) (hfree : s.isTaken organization name = false) :
    Sound s' ∧ s'.isTaken organization name = false := by
  refine h.keeps (P := fun s => Sound s ∧ s.isTaken organization name = false) ⟨hs, hfree⟩ ?_
  intro x op o s' answer hkept hallowed hissues hdone
  have hmeans := means_of_issues hallowed.1.path hallowed.1.scheme hissues
  have hcreates := (hmeans.creates organization name).trans hallowed.2
  exact ⟨hdone.sound hkept.1, hdone.stays_free hkept.1 hcreates hkept.2⟩

end Free

/-! ## 5. Reading back -/

/-- Somebody with the secret of a caller, who has not given up. -/
structure Caller.Joins (y x : Caller) : Prop extends Reaches y where
  token : y.client.token = x.client.token
  goes : y.line.cancelled y.world = false

/-- A workspace is read by its name and by its id as it is, and is in the list of its
    organization once, with a link to the organization.  What is asked for this has to be
    deliverable, and the list short enough for a walk. -/
structure IsReadBack (y : Caller) (organization name : String) (w : Resource Workspace) : Prop where
  byName : ∀ included,
    (Operation.workspaces (.read organization name included)).isDeliverable y.client = true →
    y.perform (.workspaces (.read organization name included)) = (.ok w, y.store)
  byId : (Operation.workspaces (.readById w.id)).isDeliverable y.client = true →
    y.perform (.workspaces (.readById w.id)) = (.ok w, y.store)
  listed : ∀ o : Workspaces.ListOptions, (∀ text ∈ o.search, text.toList <:+: name.toList) →
    Listing.CanWalk y.client organization o (wanted y.store organization o.search).length →
    (wanted y.store organization o.search).length ≤ 1000 * Listing.pageSize o →
    ∃ all, y.collect .workspace (.workspaces organization o) = (.ok all, y.store) ∧
      all.filter (fun v => v.id = w.id) = [w]
  linked : w.relationships = ownedBy organization

section Reading

variable {x y : Caller} {s : Store} {organization name : String} {w : Resource Workspace}

/-- Who shares the secret of somebody who is known is let in. -/
theorem Caller.Joins.served (h : y.Joins x) (hx : x.IsKnown)
    (hsecret : y.store.requiredToken = x.store.requiredToken) : y.IsServed := by
  refine ⟨h.toReaches, ⟨?_, ?_⟩, h.goes⟩
  · rw [h.token]
    exact hx.sendable
  · rw [isKnown, hsecret, h.token]
    exact hx.known

/-- **Whoever is let in reads what is kept.** -/
theorem Caller.IsServed.isReadBack (h : y.IsServed) (hs : Sound y.store) (horganization : IsName organization)
    (hname : IsName name) (hid : IsName w.id) (hstored : y.store.workspaces.find? w.id = some w)
    (howner : w.relationships = ownedBy organization) (hnamed : w.attributes.name = name) :
    IsReadBack y organization name w := by
  have howner' : owner? w = some organization := Store.owner?_of_ownedBy howner
  have hfound : y.store.findWorkspace? organization name = some w :=
    hs.findWorkspace?_eq_some_iff.2 ⟨hstored, howner', hnamed⟩
  have hknown : (y.store.organizations.find? organization).isSome = true := by
    obtain ⟨other, hother, howns⟩ := hs.owned w.id w hstored
    have hsame := Store.owner?_of_ownedBy howns
    rw [howner', Option.some.injEq] at hsame
    rwa [hsame]
  constructor
  · intro included hdeliverable
    rw [h.read hs horganization hname hdeliverable, hfound]
    rfl
  · intro hdeliverable
    rw [h.readById hs hid hdeliverable, hstored]
    rfl
  · intro o hsearch hwalk hshort
    obtain ⟨all, hcollect, hall⟩ := h.collect hs horganization hknown hwalk hshort
    refine ⟨all, hcollect, hs.filter_listed hstored howner' ?_ hall⟩
    rw [hnamed]
    exact hsearch
  · exact howner

theorem Caller.names_of_create {o : Workspaces.NewWorkspace} {v : Resource Workspace}
    (hok : (x.perform (.workspaces (.create organization o))).1 = .ok v) (hname : o.name = some name)
    (hdots : ∀ t ∈ [organization, name], t ≠ "." ∧ t ≠ "..") : IsName organization ∧ IsName name := by
  obtain ⟨r, request, hr, -⟩ := perform_ok hok
  obtain ⟨call, hcall, -⟩ := ok_of_bind hr
  obtain ⟨other, body, hother, hidentifier, -⟩ := create_call hcall
  rw [hname, Option.some.injEq] at hother
  have horganization : isIdentifier organization = true :=
    (Operation.address_of_request hr).1 _ (.tail _ (.head _))
  exact ⟨⟨horganization, hdots _ (.head _)⟩, ⟨hother ▸ hidentifier, hdots _ (.tail _ (.head _))⟩⟩

end Reading

/-! ## 6. From the creation to the deletion and on -/

/-- A workspace has been created for a caller, and is there. -/
structure IsCreated (x : Caller) (organization name : String) (w : Resource Workspace) (s : Store) : Prop where
  caller : x.IsKnown
  secret : s.requiredToken = x.store.requiredToken
  names : IsName organization ∧ IsName name
  unrelated : Unrelated s
  issued : Issued w.id (fun v => owner? v = some organization ∧ v.attributes.name = name) s
  stored : s.workspaces.find? w.id = some w
  owner : w.relationships = ownedBy organization
  named : w.attributes.name = name

/-- A workspace has been deleted, and nobody has its name. -/
structure IsDeleted (x : Caller) (organization name id : String) (s : Store) : Prop where
  caller : x.IsKnown
  secret : s.requiredToken = x.store.requiredToken
  names : IsName organization ∧ IsName name
  unrelated : Unrelated s
  issued : Issued id (fun _ => False) s
  free : s.isTaken organization name = false

section Phases

variable {start s : Store} {x y z : Caller} {organization name id : String} {w : Resource Workspace}

/-- **What a caller is told to be created is there.** -/
theorem isCreated_of_create (hfresh : IsFresh start) (hx : x.Reaches)
    (hbefore : Calls (fun _ _ => True) start x.store) {o : Workspaces.NewWorkspace} (hname : o.name = some name)
    (hdots : ∀ t ∈ [organization, name], t ≠ "." ∧ t ≠ "..")
    (hok : (x.perform (.workspaces (.create organization o))).1 = .ok w) :
    IsCreated x organization name w (x.perform (.workspaces (.create organization o))).2 := by
  obtain ⟨horganization, hplain⟩ := Caller.names_of_create hok hname hdots
  obtain ⟨hcaller, other, hother, rfl, hcreated⟩ := Caller.created hx horganization hok
  obtain rfl : name = other := Option.some.inj (hname.symm.trans hother)
  have hcalls : Calls (fun _ _ => True) start (x.perform (.workspaces (.create organization o))).2 :=
    .perform hbefore trivial
  have hsound := hcalls.sound hfresh.sound
  have hunrelated := hcalls.unrelated hfresh.unrelated
  rw [hcreated] at hsound hunrelated ⊢
  refine ⟨hcaller, rfl, ⟨horganization, hplain⟩, hunrelated, ⟨hsound, ?_, ?_⟩, ?_, rfl, rfl⟩
  · exact ⟨x.store.nextNumber, Nat.lt_succ_self _, rfl⟩
  · intro v hv
    rcases Keyed.find?_insert_eq_some_iff.1 hv with ⟨-, rfl⟩ | ⟨hne, -⟩
    · exact ⟨Store.owner?_of_ownedBy rfl, rfl⟩
    · exact absurd rfl hne
  · rw [Store.withWorkspace, Keyed.find?_insert, if_pos rfl]

namespace IsCreated

variable (h : IsCreated x organization name w s)

include h

/-- **Until it is disturbed, the workspace is read back.** -/
theorem isReadBack
    (hcalls : Calls (fun v op => v.Reaches ∧ disturbs organization name w.id op = false) s y.store)
    (hy : y.Joins x) : IsReadBack y organization name w := by
  obtain ⟨n, -, hid⟩ := h.issued.number
  have hserved := hy.served h.caller (hcalls.requiredToken.trans h.secret)
  have hstored := kept_after hcalls h.issued.sound (Store.owner?_of_ownedBy h.owner) h.named h.stored
  refine hserved.isReadBack (hcalls.sound h.issued.sound) h.names.1 h.names.2 ?_ hstored h.owner h.named
  rw [← hid]
  exact isName_workspaceId n

/-- **Whoever deletes the name, whatever happened before, leaves nothing behind.** -/
theorem isDeleted (hcalls : Calls (fun _ _ => True) s y.store) (hy : y.Reaches)
    (hok : (y.perform (.workspaces (.delete organization name))).1 = .ok ()) :
    IsDeleted x organization name w.id (y.perform (.workspaces (.delete organization name))).2 := by
  obtain ⟨answer, hdone⟩ := Caller.deleted hy h.names.1 h.names.2 hok
  have hall : Calls (fun _ _ => True) s (y.perform (.workspaces (.delete organization name))).2 :=
    .perform hcalls trivial
  obtain ⟨hissued, hfree⟩ := (h.issued.after hcalls fun v locked hv => hv).of_deleted hdone
  exact ⟨h.caller, hall.requiredToken.trans h.secret, h.names, hall.unrelated h.unrelated,
    hissued, hfree⟩

end IsCreated

namespace IsDeleted

variable (h : IsDeleted x organization name id s)

include h

/-- **Until the name is given again, nothing is read by it.** -/
theorem byName (hcalls : Calls (fun v op => v.Reaches ∧ recreates organization name op = false) s z.store)
    (hz : z.Joins x) {included : List String}
    (hdeliverable : (Operation.workspaces (.read organization name included)).isDeliverable z.client = true) :
    z.perform (.workspaces (.read organization name included)) = (.error .resourceNotFound, z.store) := by
  have hserved := hz.served h.caller (hcalls.requiredToken.trans h.secret)
  obtain ⟨hsound, hfree⟩ := free_after hcalls h.issued.sound h.free
  have hnone : z.store.findWorkspace? organization name = none := by
    simpa [Store.isTaken] using hfree
  rw [hserved.read hsound h.names.1 h.names.2 hdeliverable, hnone]
  rfl

/-- **Nothing is read by the id**, for ever. -/
theorem byId (hcalls : Calls (fun _ _ => True) s z.store) (hz : z.Joins x)
    (hdeliverable : (Operation.workspaces (.readById id)).isDeliverable z.client = true) :
    z.perform (.workspaces (.readById id)) = (.error .resourceNotFound, z.store) := by
  have hserved := hz.served h.caller (hcalls.requiredToken.trans h.secret)
  obtain ⟨n, -, hid⟩ := h.issued.number
  have hissued := h.issued.after hcalls fun _ _ hv => hv
  have hnone : z.store.workspaces.find? id = none :=
    Option.eq_none_iff_forall_not_mem.2 hissued.holds
  have hname : IsName id := by
    rw [← hid]
    exact isName_workspaceId n
  rw [hserved.readById hissued.sound hname hdeliverable, hnone]
  rfl

/-- **No list has the id**, for ever. -/
theorem listed (hcalls : Calls (fun _ _ => True) s z.store) (hz : z.Reaches) (owner : String)
    (options : Workspaces.ListOptions) :
    (∀ page, (z.perform (.workspaces (.list owner options))).1 = .ok page →
      ∀ v ∈ page.items, v.id ≠ id) ∧
    ∀ all, (z.collect .workspace (.workspaces owner options)).1 = .ok all → ∀ v ∈ all, v.id ≠ id := by
  have hissued := h.issued.after hcalls fun _ _ hv => hv
  have hunrelated := hcalls.unrelated h.unrelated
  have habsent : ∀ v, z.store.workspaces.find? v.id = some v → v.id ≠ id := by
    rintro v hv rfl
    exact hissued.holds v hv
  constructor
  · intro page hpage v hv
    exact habsent v (z.kept_of_list hz hissued.sound hunrelated hpage v hv)
  · intro all hall v hv
    exact habsent v ((z.kept_of_collect hz hissued.sound hunrelated options).2 all hall v hv)

end IsDeleted

end Phases

/-- A caller without a token, at a service. -/
def visitor (c : Client) (s : Store) : Caller := ⟨c, Listing.newYear, true, none, nofun, World.start s⟩

theorem isName_acme : IsName "acme" := ⟨by decide, by decide⟩

section Visitors

variable {c : Client} (hpublic : Operation.IsPublic c)

include hpublic

theorem visitor_reaches (s : Store) : (visitor c s).Reaches where
  path := hpublic.path
  scheme := by
    change c.apiUrl.scheme ≠ _
    rw [hpublic.scheme]
    decide

theorem visitor_joins (s s' : Store) : (visitor c s).Joins (visitor c s') :=
  ⟨visitor_reaches hpublic s, rfl, rfl⟩

theorem visitor_served : (visitor c exampleStore).IsServed := by
  have hsendable : Http.isFieldValue c.token = true := by
    rw [hpublic.token]
    decide
  exact ⟨visitor_reaches hpublic _, ⟨hsendable, rfl⟩, rfl⟩

/-- A visitor gets every name in `acme` that is free. -/
theorem visitor_creates {name : String} (hidentifier : isIdentifier name = true)
    (hfree : exampleStore.findWorkspace? "acme" name = none) :
    ∃ w, ((visitor c exampleStore).perform (.workspaces (.create "acme" { name := some name }))).1 = .ok w ∧
      w.id = workspaceId 1 := by
  have hknown : (exampleStore.organizations.find? "acme").isSome = true := by
    decide +kernel
  have hbearer : Http.isFieldValue ("Bearer " ++ c.token) = true := by
    rw [hpublic.token]
    decide
  have hweb : (Operation.workspaces (.create "acme" { name := some "web" })).isDeliverable c = true :=
    Client.holds_of_config hpublic.client (P := (Operation.isDeliverable · _)) (by decide +kernel)
  -- the name is in the body, and does not make the URL longer
  obtain ⟨body, hcall⟩ := exists_create_call (o := { name := some name }) isName_acme.identifier rfl hidentifier
  obtain ⟨other, hother⟩ := exists_create_call (o := { name := some "web" }) isName_acme.identifier rfl
    (by decide)
  have hdeliverable := Operation.deliverable_congr hbearer hother hcall rfl rfl rfl hweb
  exact ⟨_, (visitor_served hpublic).create isName_acme hknown rfl hidentifier hdeliverable hfree, rfl⟩

end Visitors

theorem isName_textOfLength {n : Nat} (h : 2 < n) : IsName (textOfLength n) := by
  have hother : ∀ t : String, t.toList.length ≤ 2 → textOfLength n ≠ t := by
    rintro t hshort rfl
    rw [toList_textOfLength, List.length_replicate] at hshort
    omega
  constructor
  · have hchars : ∀ c ∈ (textOfLength n).toList, isIdentifierChar c = true := by
      intro c hc
      rw [toList_textOfLength] at hc
      rw [List.eq_of_mem_replicate hc]
      rfl
    simp only [isIdentifier, Bool.and_eq_true, List.all_eq_true]
    exact ⟨by simpa using hother "" (by decide), hchars⟩
  · exact ⟨hother "." (by decide), hother ".." (by decide)⟩

/-- No example workspace has a name of more than a hundred letters. -/
theorem textOfLength_isFree {n : Nat} (h : 100 < n) :
    exampleStore.findWorkspace? "acme" (textOfLength n) = none := by
  have hshort : (exampleStore.workspaces.entries.all fun e => e.2.attributes.name.toList.length ≤ 100) = true := by
    decide +kernel
  rw [Store.findWorkspace?_eq_none_iff]
  rintro id w hstored - hnamed
  have hlength := of_decide_eq_true (List.all_eq_true.1 hshort _ ((Keyed.mem_entries_iff _ id w).2 hstored))
  rw [hnamed, toList_textOfLength, List.length_replicate] at hlength
  omega

/-- What a visitor creates in a body is not read in a path that is too long for it. -/
theorem visitor_unread {c : Client} (hpublic : Operation.IsPublic c) {n : Nat} (hlong : longestUrl < n) :
    let x := visitor c exampleStore
    let y := visitor c (x.perform (.workspaces (.create "acme" { name := some (textOfLength n) }))).2
    (∃ w, (x.perform (.workspaces (.create "acme" { name := some (textOfLength n) }))).1 = .ok w) ∧
      y.perform (.workspaces (.read "acme" (textOfLength n) [])) = (.error .connection, y.store) := by
  have hletters : 100 < n := Nat.lt_trans (by decide) hlong
  have hname : IsName (textOfLength n) := isName_textOfLength (by omega)
  obtain ⟨w, hok, -⟩ := visitor_creates hpublic hname.identifier (textOfLength_isFree hletters)
  have hdots : ∀ t ∈ ["acme", textOfLength n], t ≠ "." ∧ t ≠ ".." := by
    rintro t (- | ⟨_, - | ⟨_, ⟨⟩⟩⟩)
    · exact isName_acme.noDots
    · exact hname.noDots
  have hcreated := isCreated_of_create isFresh_exampleStore (visitor_reaches hpublic _) .none rfl hdots hok
  have hserved := (visitor_joins hpublic _ _).served hcreated.caller hcreated.secret
  have hretry : c.retry.retryServerErrors = false := by
    rw [Client.retry_ofConfig hpublic.client]
    rfl
  exact ⟨⟨w, hok⟩, hserved.read_too_long isName_acme hname (longestUrl_lt_textOfLength hlong) hretry⟩

end TerraformCloud.Simulator
