/-
  TerraformCloud/Proofs/Simulator/Granted.lean
  ============================================
  **Ids and names are given out once.**

  The history of a service is what was carried out, one order after the other.  The ids
  that the answers tell are those of the numbers from one on, in order (`granted_ids`), so
  none is given out twice, deleted or not.  A name stays taken until the workspace that has
  it is taken out, by itself or along with its organization (`Done.stays_taken`): in every
  stretch of the history without such an order, the name is granted at most once.
-/
import TerraformCloud.Proofs.Simulator.Sound
import TerraformCloud.Proofs.Simulator.Telling

namespace TerraformCloud.Simulator

open Store (owner?)

/-- What was carried out, with the answers. -/
abbrev History := List (Order × Http.Response)

/-! ## 1. Creations -/

def Order.isCreation : Order → Bool
  | createWorkspace _ _ => true
  | _ => false

/-- Whether an order creates the workspace of this name in an organization. -/
def Order.creates (organization name : String) : Order → Bool
  | createWorkspace owner fields => owner = organization && fields.1 = some name
  | _ => false

/-- The id that the answer to a creation tells. -/
def grantedId? (d : Order × Http.Response) : Option String :=
  if d.1.isCreation then (toldOne .workspace d.2).map (·.id) else none

/-- How many workspaces were created. -/
def creations (done : History) : Nat := done.countP (·.1.isCreation)

/-- The ids that were given out, in order. -/
def grantedIds (done : History) : List String := done.filterMap grantedId?

theorem newWorkspace_relationships (now : Instant) (id organization name : String)
    (fields : newWorkspaceFields.Record) :
    (newWorkspace now id organization name fields).relationships = ownedBy organization := rfl

section Steps

variable {now : Instant} {s s' : Store} {o : Order} {r : Http.Response}

/-- A creation gives out the next number, and nothing else does. -/
theorem Done.grants (hdone : Done now s o s' r) :
    grantedId? (o, r) = (if o.isCreation then some (workspaceId s.nextNumber) else none) ∧
      s'.nextNumber = s.nextNumber + (if o.isCreation then 1 else 0) := by
  cases hdone with
  | @workspaceCreated organization name fields known given nonempty free =>
    refine ⟨?_, rfl⟩
    have htold := toldOne_workspace 201
      (newWorkspace_relationships now (workspaceId s.nextNumber) organization name fields)
    rw [grantedId?, htold]
    rfl
  | organizationCreated given nonempty free => exact ⟨if_neg Bool.false_ne_true, rfl⟩
  | organizationDeleted known => exact ⟨if_neg Bool.false_ne_true, rfl⟩
  | workspaceDeleted found stored => exact ⟨if_neg Bool.false_ne_true, rfl⟩
  | lockSet found other => exact ⟨if_neg Bool.false_ne_true, rfl⟩

/-- Whether a name is taken in an organization. -/
def Store.isTaken (s : Store) (organization name : String) : Bool :=
  (s.findWorkspace? organization name).isSome

theorem Sound.isTaken_iff (h : Sound s) {organization name : String} :
    s.isTaken organization name = true ↔ ∃ w, s.workspaces.find? w.id = some w ∧
      owner? w = some organization ∧ w.attributes.name = name := by
  rw [Store.isTaken, Option.isSome_iff_exists]
  simp only [h.findWorkspace?_eq_some_iff]

/-- **A name stays taken** until its workspace or its organization is taken out. -/
theorem Done.stays_taken (h : Sound s) (hdone : Done now s o s' r) {organization name : String}
    (hkept : o.removes organization name = false) (htaken : s.isTaken organization name = true) :
    s'.isTaken organization name = true := by
  rw [(hdone.sound h).isTaken_iff]
  obtain ⟨w, hstored, howner, hname⟩ := h.isTaken_iff.1 htaken
  have hfate := hdone.fate h w.id
  generalize hafter : s'.workspaces.find? w.id = x at hfate
  rw [hstored] at hfate
  cases hfate with
  | untouched other => exact ⟨w, hafter, howner, hname⟩
  | @locked locked _ order flipped => exact ⟨setLocked w locked, hafter, howner, hname⟩
  | removed owner named order =>
    rw [owner] at howner
    cases howner
    rw [← named, hname, hkept] at order
    cases order

theorem Done.takes (h : Sound s) (hdone : Done now s o s' r) {organization name : String}
    (hcreates : o.creates organization name = true) :
    s.isTaken organization name = false ∧ s'.isTaken organization name = true := by
  have hsound := hdone.sound h
  cases hdone with
  | @workspaceCreated owner other fields known given nonempty free =>
    obtain ⟨rfl, hname⟩ : owner = organization ∧ fields.1 = some name := by
      simpa [Order.creates] using hcreates
    obtain rfl : other = name := Option.some.inj (given.symm.trans hname)
    refine ⟨by rw [Store.isTaken, free]; rfl, hsound.isTaken_iff.2 ?_⟩
    refine ⟨newWorkspace now (workspaceId s.nextNumber) owner other fields, ?_, ?_, rfl⟩
    · rw [Store.withWorkspace, Keyed.find?_insert, if_pos rfl]
    · exact Store.owner?_of_ownedBy rfl
  | organizationCreated given nonempty free => cases hcreates
  | organizationDeleted known => cases hcreates
  | workspaceDeleted found stored => cases hcreates
  | lockSet found other => cases hcreates

end Steps

/-! ## 2. Histories -/

variable {start : Store}

theorem Sound.after (h : Sound start) (arrivals : List Arrival) : Sound (after start arrivals) :=
  deeds_induction (P := fun s _ => Sound s) h (fun hs hdone => hdone.sound hs) arrivals

/-- **The ids given out are those of the numbers from the first one on.** -/
theorem granted_ids (start : Store) (arrivals : List Arrival) :
    let done := deeds (exchanges start arrivals)
    (after start arrivals).nextNumber = start.nextNumber + creations done ∧
      grantedIds done = (List.range' start.nextNumber (creations done)).map workspaceId := by
  refine deeds_induction (P := fun s done => s.nextNumber = start.nextNumber + creations done ∧
    grantedIds done = (List.range' start.nextNumber (creations done)).map workspaceId) ⟨rfl, rfl⟩ ?_ arrivals
  intro now s done o s' r hprefix hdone
  obtain ⟨hnext, hids⟩ := hprefix
  obtain ⟨hgranted, hnumber⟩ := hdone.grants
  have hcount : creations (done ++ [(o, r)]) = creations done + if o.isCreation then 1 else 0 := by
    simp [creations, List.countP_append, List.countP_singleton]
  have hlist : grantedIds (done ++ [(o, r)]) = grantedIds done ++ (grantedId? (o, r)).toList := by
    cases hid : grantedId? (o, r) <;> simp [grantedIds, hid]
  rw [hnumber, hcount, hlist, hgranted, hids]
  split
  · refine ⟨by omega, ?_⟩
    rw [List.range'_concat, List.map_append, hnext, Option.toList_some, Nat.one_mul]
    rfl
  · exact ⟨hnext, by simp⟩

/-- What a stretch of the history says about a name: as long as the name's workspace is
    kept, it is created once at most, and once created it is there at the end. -/
structure Once (organization name : String) (s : Store) (done : History) : Prop where
  sound : Sound s
  taken : ∀ stretch, stretch <:+ done → (∀ d ∈ stretch, d.1.removes organization name = false) →
    0 < stretch.countP (·.1.creates organization name) → s.isTaken organization name = true
  once : ∀ stretch, stretch <:+: done → (∀ d ∈ stretch, d.1.removes organization name = false) →
    stretch.countP (·.1.creates organization name) ≤ 1

namespace Once

variable {now : Instant} {s s' : Store} {o : Order} {r : Http.Response} {organization name : String}
  {done : History}

theorem nil (h : Sound s) : Once organization name s [] := by
  refine ⟨h, ?_, ?_⟩
  · intro stretch hstretch _ hcount
    rw [List.suffix_nil.1 hstretch] at hcount
    cases hcount
  · intro stretch hstretch _
    rw [List.infix_nil.1 hstretch]
    exact Nat.zero_le _

/-- A stretch that ends with what is carried out now. -/
theorem concat_stretch (h : Once organization name s done) (hdone : Done now s o s' r)
    {stretch : History} (hstretch : stretch <:+ done)
    (hkept : ∀ d ∈ stretch ++ [(o, r)], d.1.removes organization name = false) :
    let count := (stretch ++ [(o, r)]).countP (·.1.creates organization name)
    count ≤ 1 ∧ (0 < count → s'.isTaken organization name = true) := by
  have hbefore : ∀ d ∈ stretch, d.1.removes organization name = false :=
    fun d hd => hkept d (List.mem_append_left _ hd)
  have hnow : o.removes organization name = false :=
    hkept (o, r) (List.mem_append_right _ (List.mem_singleton_self _))
  have htaken := h.taken stretch hstretch hbefore
  have hle := h.once stretch hstretch.isInfix hbefore
  simp only [List.countP_append, List.countP_singleton]
  by_cases hcreates : o.creates organization name = true
  · obtain ⟨hfree, htakes⟩ := hdone.takes h.sound hcreates
    -- an earlier one would still have the name
    have hzero : stretch.countP (·.1.creates organization name) = 0 := by
      apply Nat.eq_zero_of_not_pos
      intro hpos
      rw [htaken hpos] at hfree
      cases hfree
    rw [if_pos hcreates, hzero]
    exact ⟨Nat.le_refl 1, fun _ => htakes⟩
  · rw [if_neg hcreates]
    exact ⟨hle, fun hpos => hdone.stays_taken h.sound hnow (htaken hpos)⟩

theorem concat (h : Once organization name s done) (hdone : Done now s o s' r) :
    Once organization name s' (done ++ [(o, r)]) := by
  refine ⟨hdone.sound h.sound, ?_, ?_⟩
  · intro stretch hstretch hkept hpos
    rcases List.suffix_concat_iff.1 hstretch with rfl | ⟨before, rfl, hbefore⟩
    · cases hpos
    · exact (h.concat_stretch hdone hbefore hkept).2 hpos
  · intro stretch hstretch hkept
    rcases List.infix_concat_iff.1 hstretch with hend | hinner
    · rcases List.suffix_concat_iff.1 hend with rfl | ⟨before, rfl, hbefore⟩
      · exact Nat.zero_le _
      · exact (h.concat_stretch hdone hbefore hkept).1
    · exact h.once stretch hinner hkept

end Once

/-- **Between two deletions a name is granted once.** -/
theorem granted_once (h : Sound start) (arrivals : List Arrival) (organization name : String) :
    Once organization name (after start arrivals) (deeds (exchanges start arrivals)) :=
  deeds_induction (.nil h) (fun h hdone => h.concat hdone) arrivals

/-- Each workspace was there at the start, or was given its id since then. -/
def Accounted (start s : Store) (done : History) : Prop :=
  ∀ id w, s.workspaces.find? id = some w →
    (start.workspaces.find? id).isSome = true ∨ id ∈ grantedIds done

theorem Done.accounted {now : Instant} {s s' : Store} {o : Order} {r : Http.Response} (h : Sound s)
    (hdone : Done now s o s' r) {done : History} (hbefore : Accounted start s done) :
    Accounted start s' (done ++ [(o, r)]) := by
  intro id w hstored
  have hmono : id ∈ grantedIds done → id ∈ grantedIds (done ++ [(o, r)]) := by
    intro hid
    rw [grantedIds, List.filterMap_append]
    exact List.mem_append_left _ hid
  have hfate := hdone.fate h id
  rw [hstored] at hfate
  generalize hfound : s.workspaces.find? id = x at hfate
  cases hfate with
  | untouched other => exact (hbefore id w hfound).imp_right hmono
  | locked order flipped => exact (hbefore id _ hfound).imp_right hmono
  | created order next =>
    right
    obtain ⟨hgranted, -⟩ := hdone.grants
    rw [order, Order.isCreation, if_pos rfl] at hgranted
    apply List.mem_filterMap.2
    refine ⟨(o, r), List.mem_append_right _ (List.mem_singleton_self _), ?_⟩
    rw [order, hgranted, next]

theorem accounted_after (h : Sound start) (arrivals : List Arrival) :
    Accounted start (after start arrivals) (deeds (exchanges start arrivals)) := by
  have hinitially : Accounted start start [] := by
    intro id w hstored
    left
    rw [hstored]
    rfl
  exact (deeds_induction (P := fun s done => Sound s ∧ Accounted start s done) ⟨h, hinitially⟩
    (fun hprefix hdone => ⟨hdone.sound hprefix.1, hdone.accounted hprefix.1 hprefix.2⟩) arrivals).2

/-- **The data is sound after all requests**, ids are given out once, and so are names
    between two deletions. -/
theorem sound_after_requests {start : Store} (hfresh : IsFresh start) (arrivals : List Arrival) :
    let s := after start arrivals
    let done := deeds (exchanges start arrivals)
    Sound s ∧
    s.nextNumber = 1 + creations done ∧ (creations done < 2 ^ 64 - 1 → s.nextNumber < 2 ^ 64) ∧
    grantedIds done = (List.range' 1 (creations done)).map workspaceId ∧ (grantedIds done).Nodup ∧
    (∀ id ∈ grantedIds done, start.workspaces.find? id = none) ∧
    (∀ id w, s.workspaces.find? id = some w →
      (start.workspaces.find? id).isSome = true ∨ id ∈ grantedIds done) ∧
    ∀ organization name stretch, stretch <:+: done →
      (∀ d ∈ stretch, d.1.removes organization name = false) →
        stretch.countP (·.1.creates organization name) ≤ 1 := by
  intro s done
  have hsound := hfresh.sound
  obtain ⟨hnext, hids⟩ := granted_ids start arrivals
  rw [hfresh.number] at hnext hids
  change s.nextNumber = 1 + creations done at hnext
  refine ⟨hsound.after arrivals, hnext, ?_, hids, ?_, ?_, accounted_after hsound arrivals, ?_⟩
  · intro hfew
    omega
  · rw [hids]
    exact List.Nodup.map workspaceId_injective List.nodup_range'
  · intro id hid
    rw [hids] at hid
    obtain ⟨n, hn, rfl⟩ := List.mem_map.1 hid
    cases hstored : start.workspaces.find? (workspaceId n) with
    | none => rfl
    | some w =>
      have hlt := hsound.numbered n w hstored
      have hle := (List.mem_range'_1.1 hn).1
      rw [hfresh.number] at hlt
      omega
  · intro organization name stretch
    exact (granted_once hsound arrivals organization name).once stretch

/-! ### An example -/

/-- A request to a service on this machine. -/
def localRequest (method : Http.Method) (path : List String) (body : Option Json.Value) :
    Http.Request where
  method
  url := ⟨"http", some ⟨"", "", .name "localhost", none⟩, .segments ("api" :: "v2" :: path), none, none⟩
  headers := .ofList [("content-type", "application/vnd.api+json")]
  body := body.map fun v => Utf8.encode v.compact

/-- A request for a new workspace of the first example organization. -/
def requestNew (name : String) : Http.Request :=
  localRequest .post ["organizations", "acme", "workspaces"] <| some <| .object
    [("data", .object
      [("type", .string "workspaces"), ("attributes", .object [("name", .string name)])])]

/-- Of two callers who ask for one name, one gets it, with the first id. -/
theorem granted_to_one_of_two :
    let now := onTheHour 0 ((Date.of? 2024 1 1).get rfl)
    let done := deeds (exchanges exampleStore [(now, requestNew "web"), (now, requestNew "web")])
    IsFresh exampleStore ∧ done.countP (·.1.creates "acme" "web") = 1 ∧
      grantedIds done = ["ws-0000000000000001"] := by
  intro now done
  let fields : newWorkspaceFields.Record := (some "web", none, none, none, none, [], ())
  have herrand : Errand.of (requestNew "web") = .order (.createWorkspace "acme" fields) := by
    decide +kernel
  have hfree : exampleStore.findWorkspace? "acme" "web" = none := by
    cbv
  have hknown : (exampleStore.organizations.find? "acme").isSome = true := by
    decide +kernel
  have hfirst : isDone (handle now (requestNew "web") exampleStore).2 = true := by
    rw [handle_of_order herrand]
    change isDone (if (exampleStore.organizations.find? "acme").isSome then
      createWorkspace now exampleStore "acme" fields else (exampleStore, notFound)).2 = true
    rw [if_pos hknown, createWorkspace_eq]
    change isDone (if (exampleStore.findWorkspace? "acme" "web").isSome then _ else _ : _ × _).2 = true
    rw [hfree]
    rfl
  have hmem : (.createWorkspace "acme" fields, (handle now (requestNew "web") exampleStore).2) ∈ done :=
    List.mem_filterMap.2 ⟨_, List.mem_cons_self, (deed?_of_order herrand).trans (if_pos hfirst)⟩
  have hlength : 0 < done.length := List.length_pos_of_mem hmem
  have hall : ∀ d ∈ done, d.1 = .createWorkspace "acme" fields := by
    intro d hd
    obtain ⟨x, hx, hdeed⟩ := List.mem_filterMap.1 hd
    have hrequest : x.1 = requestNew "web" := by
      simp only [exchanges, List.mem_cons, List.not_mem_nil, or_false] at hx
      rcases hx with rfl | rfl <;> rfl
    obtain ⟨req, r⟩ := x
    obtain rfl : req = requestNew "web" := hrequest
    rw [deed?_of_order herrand] at hdeed
    split at hdeed
    · cases hdeed
      rfl
    · cases hdeed
  have hcreates : done.countP (·.1.creates "acme" "web") = done.length := by
    apply List.countP_eq_length.2
    intro d hd
    rw [hall d hd]
    rfl
  have hcreations : creations done = done.length := by
    apply List.countP_eq_length.2
    intro d hd
    rw [hall d hd]
    rfl
  obtain ⟨-, -, -, hids, -, -, -, honce⟩ := sound_after_requests isFresh_exampleStore
    [(now, requestNew "web"), (now, requestNew "web")]
  have hle : done.countP (·.1.creates "acme" "web") ≤ 1 := by
    refine honce "acme" "web" done (List.infix_refl done) fun d hd => ?_
    rw [hall d hd]
    rfl
  have hone : done.length = 1 := by omega
  refine ⟨isFresh_exampleStore, hcreates.trans hone, hids.trans ?_⟩
  rw [show creations (deeds _) = 1 from hcreations.trans hone]
  decide +kernel

end TerraformCloud.Simulator
