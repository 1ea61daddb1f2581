/-
  TerraformCloud/Proofs/Simulator/Locks.lean
  ==========================================
  **A workspace is locked and unlocked in turn.**

  Whoever locks a workspace has to find it unlocked, and the other way round; so among the
  requests that are granted for one id the two alternate, no matter who sends them and in
  which order they arrive.  The flag is changed by these requests alone: the workspace may
  be deleted, but its id is not given out again, so that a later workspace cannot take the
  flag over (`Turns.fresh`).  What is told about the workspace is therefore what the last
  of them made of it (`locks_alternate`).
-/
import TerraformCloud.Proofs.Simulator.Granted

namespace TerraformCloud.Simulator

/-! ## 1. Reading -/

namespace Question

/-- The workspaces that the answer to a question tells. -/
def told (r : Http.Response) : Question → List (Resource Workspace)
  | workspaces _ _ => toldPage .workspace r
  | workspace _ _ => (toldOne .workspace r).toList
  | workspaceById _ => (toldOne .workspace r).toList
  | organizations _ => []
  | organization _ => []

end Question

section Reading

variable {now : Instant} {req : Http.Request} {s : Store} {q : Question}

theorem handle_of_question (h : Errand.of req = .question q) :
    handle now req s = (s, asAsked req.method
      (if isAuthorized s req.headers = true then q.answer s else failure 401 "unauthorized" "")) := by
  rw [handle_eq, h, Errand.run, guarded]
  split <;> rfl

theorem Sound.recoverable (h : Sound s) {id : String} {w : Resource Workspace}
    (hstored : s.workspaces.find? id = some w) (depth : Nat) : w.relationships.Recoverable depth := by
  obtain ⟨organization, -, howner⟩ := h.owned id w hstored
  rw [howner]
  exact recoverable_ownedBy organization depth

theorem Sound.toldOne_single (h : Sound s) (status : Http.Status) {id : String} {w : Resource Workspace}
    (hstored : s.workspaces.find? id = some w) : toldOne .workspace (single status w) = some w := by
  obtain ⟨organization, -, howner⟩ := h.owned id w hstored
  exact toldOne_workspace status howner

theorem exists_of_mem_matching {organization : String} {search : Option String} {w : Resource Workspace}
    (h : w ∈ matching s organization search) : ∃ id, s.workspaces.find? id = some w :=
  (Store.mem_workspacesOf.1 (List.mem_filter.1 h).1).1

/-- What is told about something that was looked up is kept. -/
theorem Sound.stored_of_found (h : Sound s) {x : Option (Resource Workspace)}
    (hx : ∀ v, x = some v → ∃ id, s.workspaces.find? id = some v) (hstatus : (found s x).2.status = 200)
    {w : Resource Workspace} (hw : w ∈ (toldOne .workspace (found s x).2).toList) :
    ∃ id, s.workspaces.find? id = some w := by
  cases x with
  | none => cases hstatus
  | some v =>
    obtain ⟨id, hstored⟩ := hx v rfl
    have htold : toldOne .workspace (found s (some v)).2 = some v := h.toldOne_single 200 hstored
    rw [htold, Option.toList_some, List.mem_singleton] at hw
    exact ⟨id, hw ▸ hstored⟩

/-- **Only what is kept is told.** -/
theorem Sound.stored_of_told (h : Sound s) (hstatus : (q.answer s).status = 200)
    {w : Resource Workspace} (hw : w ∈ q.told (q.answer s)) : s.workspaces.find? w.id = some w := by
  suffices ∃ id, s.workspaces.find? id = some w by
    obtain ⟨id, hstored⟩ := this
    rw [h.keyed id w hstored]
    exact hstored
  cases q with
  | organizations query => cases hw
  | organization name => cases hw
  | workspace organization name =>
    exact h.stored_of_found (fun v hv => (Store.findWorkspace?_some hv).1) hstatus hw
  | workspaceById id => exact h.stored_of_found (fun v hv => ⟨id, hv⟩) hstatus hw
  | workspaces organization query =>
    simp only [Question.answer] at hstatus hw
    split at hstatus
    · next hknown =>
      rw [if_pos hknown] at hw
      have hrs : ∀ r ∈ matching s organization query.search, r.relationships.Recoverable 122 := by
        intro r hr
        obtain ⟨id, hstored⟩ := exists_of_mem_matching hr
        exact h.recoverable hstored 122
      exact exists_of_mem_matching (@mem_of_mem_toldPage .workspace _ query hrs w hw)
    · cases hstatus

theorem told_head (q : Question) (r : Http.Response) (h : r.body = some []) : q.told r = [] := by
  have hnone : toldOne .workspace r = none := by
    rw [toldOne, h]
    rfl
  have hempty : toldPage .workspace r = [] := by
    rw [toldPage, h]
    rfl
  cases q <;> simp [Question.told, hnone, hempty]

/-- **What any answer to a question tells is kept**, under the id that is told. -/
theorem Sound.stored_of_answer (h : Sound s) (herrand : Errand.of req = .question q)
    (hstatus : (handle now req s).2.status = 200) {w : Resource Workspace}
    (hw : w ∈ q.told (handle now req s).2) : s.workspaces.find? w.id = some w := by
  rw [handle_of_question herrand] at hstatus hw
  dsimp only at hstatus hw
  unfold asAsked at hstatus hw
  by_cases hhead : req.method = .head
  · rw [if_pos hhead, told_head q _ rfl] at hw
    cases hw
  · rw [if_neg hhead] at hstatus hw
    by_cases hcaller : isAuthorized s req.headers = true
    · rw [if_pos hcaller] at hstatus hw
      exact h.stored_of_told hstatus hw
    · rw [if_neg hcaller] at hstatus
      cases hstatus

end Reading

/-! ## 2. Taking turns -/

/-- What a request to lock or unlock a workspace made of it, if it was granted. -/
def turn? (id : String) (x : Exchange) : Option Bool :=
  match Errand.of x.1 with
  | .order (.setLock id' locked) => if id' = id ∧ x.2.status = 200 then some locked else none
  | _ => none

/-- What the granted requests to lock or unlock a workspace made of it, in order. -/
def turns (id : String) (log : List Exchange) : List Bool := log.filterMap (turn? id)

/-- What an order makes of the lock of a workspace. -/
def Order.turn? (id : String) : Order → Option Bool
  | setLock id' locked => if id' = id then some locked else none
  | _ => none

section Turns

variable {now : Instant} {req : Http.Request} {s s' : Store} {o : Order} {r : Http.Response}
  {id : String}

theorem turn?_of_done (hdone : Done now s o s' r) (herrand : Errand.of req = .order o) :
    turn? id (req, r) = o.turn? id := by
  rw [turn?, herrand]
  cases hdone with
  | @lockSet id' locked w found other =>
    have hstatus : (single 200 (setLocked w locked)).status = 200 := rfl
    simp [Order.turn?, hstatus]
  | _ => rfl

/-- **The turns are among what is carried out.** -/
theorem turn?_handle (now : Instant) (req : Http.Request) (s : Store) :
    turn? id (req, (handle now req s).2) =
      (deed? (req, (handle now req s).2)).bind fun d => d.1.turn? id := by
  rcases handle_cases now req s with ⟨o, hdeed, hdone⟩ | ⟨hdeed, -⟩
  · rw [hdeed, turn?_of_done hdone (order_of_deed? hdeed)]
    rfl
  · rw [hdeed, turn?]
    split
    · next id' locked herrand =>
      refine if_neg fun hgranted => ?_
      have hrefused := isDone_of_deed?_eq_none hdeed herrand
      rw [isDone, hgranted.2] at hrefused
      cases hrefused
    · rfl

theorem turns_eq (start : Store) (arrivals : List Arrival) :
    turns id (exchanges start arrivals) =
      (deeds (exchanges start arrivals)).filterMap fun d => d.1.turn? id := by
  induction arrivals generalizing start with
  | nil => rfl
  | cons a arrivals ih =>
    have hfirst : turn? id (a.2, (handle a.1 a.2 start).2) = _ := turn?_handle a.1 a.2 start
    have hrest := ih (handle a.1 a.2 start).1
    rw [turns, deeds] at hrest ⊢
    rw [exchanges, List.filterMap_cons, List.filterMap_cons, hfirst, hrest]
    cases deed? (a.2, (handle a.1 a.2 start).2) <;> simp [List.filterMap_cons]

/-- How the turns so far fit together with what is kept. -/
structure Turns (id : String) (initially : Bool) (s : Store) (turns : List Bool) : Prop where
  sound : Sound s
  alternate : (initially :: turns).IsChain (· ≠ ·)
  flag : ∀ w, s.workspaces.find? id = some w → w.attributes.locked = turns.getLast?.getD initially
  /-- An id that may still be given out has had no turns. -/
  fresh : ∀ n, s.nextNumber ≤ n → workspaceId n = id → turns = [] ∧ initially = false

theorem Turns.nil (h : Sound s) (id : String) :
    Turns id ((s.workspaces.find? id).any (·.attributes.locked)) s [] := by
  refine ⟨h, List.isChain_singleton _, ?_, ?_⟩
  · intro w hstored
    rw [hstored]
    rfl
  · intro n hn hid
    refine ⟨rfl, ?_⟩
    cases hstored : s.workspaces.find? id with
    | none => rfl
    | some w =>
      rw [← hid] at hstored
      exact absurd (h.numbered n w hstored) (Nat.not_lt.2 hn)

/-- **Whatever is carried out keeps the turns in order.** -/
theorem Turns.step {initially : Bool} {turns : List Bool} (h : Turns id initially s turns)
    (hdone : Done now s o s' r) : Turns id initially s' (turns ++ (o.turn? id).toList) := by
  have hsound := hdone.sound h.sound
  have hnext : s.nextNumber ≤ s'.nextNumber := by
    rw [hdone.grants.2]
    exact Nat.le_add_right _ _
  have hfate := hdone.fate h.sound id
  generalize hbefore : s.workspaces.find? id = x, hafter : s'.workspaces.find? id = y at hfate
  cases hfate with
  | untouched other =>
    have hnone : o.turn? id = none := by
      cases o with
      | setLock id' locked => exact if_neg fun heq => other locked (congrArg (Order.setLock · locked) heq)
      | _ => rfl
    rw [hnone, Option.toList_none, List.append_nil]
    refine ⟨hsound, h.alternate, ?_, fun n hn => h.fresh n (Nat.le_trans hnext hn)⟩
    intro w hstored
    exact h.flag w (hbefore.trans (hafter.symm.trans hstored))
  | @created organization name fields order next =>
    -- the id is the next one, so it had no turns, and a new workspace is not locked
    subst order
    obtain ⟨rfl, rfl⟩ := h.fresh s.nextNumber (Nat.le_refl _) next.symm
    refine ⟨hsound, h.alternate, ?_, fun n hn => h.fresh n (Nat.le_trans hnext hn)⟩
    intro w hstored
    obtain rfl := Option.some.inj (hafter.symm.trans hstored)
    rfl
  | removed owner named order =>
    have hnone : o.turn? id = none := by
      cases o with
      | setLock id' locked => cases order
      | _ => rfl
    rw [hnone, Option.toList_none, List.append_nil]
    refine ⟨hsound, h.alternate, ?_, fun n hn => h.fresh n (Nat.le_trans hnext hn)⟩
    intro w hstored
    cases hafter.symm.trans hstored
  | @locked locked w order flipped =>
    subst order
    have hturn : (Order.setLock id locked).turn? id = some locked := if_pos rfl
    rw [hturn, Option.toList_some]
    rw [h.flag w hbefore] at flipped
    refine ⟨hsound, ?_, ?_, ?_⟩
    · rw [← List.cons_append, List.isChain_append]
      refine ⟨h.alternate, List.isChain_singleton _, ?_⟩
      intro a ha b hb
      obtain rfl : locked = b := by simpa using hb
      obtain rfl : turns.getLast?.getD initially = a := by simpa [List.getLast?_cons] using ha
      exact flipped
    · intro w' hstored
      obtain rfl := Option.some.inj (hafter.symm.trans hstored)
      rw [List.getLast?_concat]
      rfl
    · -- an id in use is not to be given out
      intro n hn hid
      rw [← hid] at hbefore
      exact absurd (h.sound.numbered n w hbefore) (Nat.not_lt.2 (Nat.le_trans hnext hn))

theorem turns_after {start : Store} (h : Sound start) (arrivals : List Arrival) (id : String) :
    Turns id ((start.workspaces.find? id).any (·.attributes.locked)) (after start arrivals)
      (turns id (exchanges start arrivals)) := by
  rw [turns_eq]
  refine deeds_induction (P := fun s done =>
    Turns id ((start.workspaces.find? id).any (·.attributes.locked)) s
      (done.filterMap fun d => d.1.turn? id)) (.nil h id) ?_ arrivals
  intro now s done o s' r hprefix hdone
  have hlast : (done ++ [(o, r)]).filterMap (fun d => d.1.turn? id) =
      done.filterMap (fun d => d.1.turn? id) ++ (o.turn? id).toList := by
    rw [List.filterMap_append]
    cases hturn : o.turn? id <;> simp [hturn]
  rw [hlast]
  exact hprefix.step hdone

end Turns

/-! ## 3. What callers see -/

/-- **Locks are taken in turn.**  After all requests, whoever sent them: the granted requests
    to lock or unlock a workspace have alternated, beginning with the one that changed what
    was found at first; the next such request is granted if it changes the lock once more,
    and is in conflict otherwise; and what is told about the workspace is what the last one
    made of it. -/
theorem locks_alternate {start : Store} (hfresh : IsFresh start) (arrivals : List Arrival)
    (id : String) :
    let s := after start arrivals
    let initially := (start.workspaces.find? id).any (·.attributes.locked)
    let locks := turns id (exchanges start arrivals)
    let last := locks.getLast?.getD initially
    (initially :: locks).IsChain (· ≠ ·) ∧
    (∀ now req locked, Errand.of req = .order (.setLock id locked) →
      isAuthorized s req.headers = true → (s.workspaces.find? id).isSome = true →
        (handle now req s).2.status = if locked = last then 409 else 200) ∧
    (∀ now req q, Errand.of req = .question q → (handle now req s).2.status = 200 →
      ∀ w ∈ q.told (handle now req s).2, w.id = id → w.attributes.locked = last) ∧
    ∀ now req, Errand.of req = .question (.workspaceById id) → req.method = .get →
      isAuthorized s req.headers = true → (s.workspaces.find? id).isSome = true →
        ∃ w, toldOne .workspace (handle now req s).2 = some w ∧ w.id = id ∧
          w.attributes.locked = last := by
  intro s initially locks last
  have hturns := turns_after hfresh.sound arrivals id
  refine ⟨hturns.alternate, ?_, ?_, ?_⟩
  · intro now req locked herrand hcaller hexists
    obtain ⟨w, hstored⟩ := Option.isSome_iff_exists.1 hexists
    have hflag : w.attributes.locked = last := hturns.flag w hstored
    rw [handle_of_order herrand, guarded, if_pos hcaller, Order.obey, setLock, hstored]
    dsimp only
    by_cases hsame : locked = last
    · rw [if_pos hsame, if_pos (hflag.trans hsame.symm)]
      rfl
    · rw [if_neg hsame, if_neg fun heq => hsame (heq.symm.trans hflag)]
      rfl
  · intro now req q herrand hstatus w hw hid
    have hstored := hturns.sound.stored_of_answer herrand hstatus hw
    rw [hid] at hstored
    exact hturns.flag w hstored
  · intro now req herrand hget hcaller hexists
    obtain ⟨w, hstored⟩ := Option.isSome_iff_exists.1 hexists
    refine ⟨w, ?_, hturns.sound.keyed id w hstored, hturns.flag w hstored⟩
    have hhead : req.method ≠ .head := by
      rw [hget]
      decide
    rw [handle_of_question herrand, if_pos hcaller, asAsked, if_neg hhead, Question.answer, hstored]
    exact hturns.sound.toldOne_single 200 hstored

/-- A request to lock or unlock the second example workspace. -/
def requestLock (action : String) : Http.Request :=
  localRequest .post ["workspaces", "ws-stageapp0000001", "actions", action] none

/-- The second example workspace is locked at first.  Of two callers who unlock it one is
    refused; then it is locked, and the next one who wants to lock it is refused. -/
theorem staging_app_in_turn :
    let now := onTheHour 0 ((Date.of? 2024 1 1).get rfl)
    let arrivals := [(now, requestLock "unlock"), (now, requestLock "unlock"), (now, requestLock "lock")]
    let s := after exampleStore arrivals
    IsFresh exampleStore ∧ turns "ws-stageapp0000001" (exchanges exampleStore arrivals) = [false, true] ∧
      [true, false, true].IsChain (· ≠ ·) ∧
      (handle now (requestLock "lock") s).2.status = 409 ∧
      (handle now (requestLock "unlock") s).2.status = 200 := by
  intro now arrivals s
  have hturns : turns "ws-stageapp0000001" (exchanges exampleStore arrivals) = [false, true] := by
    decide +kernel
  have hinitially : (exampleStore.workspaces.find? "ws-stageapp0000001").any (·.attributes.locked) = true := by
    decide +kernel
  have hlock : Errand.of (requestLock "lock") = .order (.setLock "ws-stageapp0000001" true) := by
    decide +kernel
  have hunlock : Errand.of (requestLock "unlock") = .order (.setLock "ws-stageapp0000001" false) := by
    decide +kernel
  have hexists : (s.workspaces.find? "ws-stageapp0000001").isSome = true := by
    decide +kernel
  obtain ⟨hchain, hnext, -⟩ := locks_alternate isFresh_exampleStore arrivals "ws-stageapp0000001"
  rw [hturns, hinitially] at hchain
  rw [hturns] at hnext
  exact ⟨isFresh_exampleStore, hturns, hchain, hnext now _ true hlock (by decide +kernel) hexists,
    hnext now _ false hunlock (by decide +kernel) hexists⟩

end TerraformCloud.Simulator
