/-
  TerraformCloud/Proofs/Simulator/Strangers.lean
  ==============================================
  **Strangers learn nothing.**

  A service that asks for a secret answers whoever does not show it without a look at what
  it knows: `Errand.run` meets the data behind the gate only, and the one errand that has
  no gate, the ping, has a path of its own.  So the answer is the same in any two states
  with the same secret, and the state stays as it is (`strangers_learn_nothing`).

  The same then holds of all that a stranger sees in the course of time, whatever other
  callers do in between: it does not even tell whether they were there
  (`view_eq`).
-/
import TerraformCloud.Proofs.Simulator.Granted

namespace TerraformCloud.Simulator

/-- The path of the one endpoint that answers anybody about the state. -/
def pingPath : UrlPath := .segments ["api", "v2", "ping"]

/-- Whether a request asks for something else than a sign of life, and does not show the
    secret. -/
def isStranger (token : String) (req : Http.Request) : Bool :=
  req.url.path ≠ pingPath && req.headers.find? "authorization" ≠ some ("Bearer " ++ token)

/-! ## 1. One request -/

section Request

variable {req : Http.Request} {token : String} {s s' : Store}

theorem allowed_eq_ping {e : Endpoint} {errand : Errand} (h : Errand.allowed req e errand = .ping) :
    errand = .ping := by
  unfold Errand.allowed at h
  split at h
  · exact h
  · cases h

theorem understood_eq_ping {e : Endpoint} (h : Errand.understood req e = .ping) : e = .ping := by
  cases e with
  | ping => rfl
  | health | workspaceById id | lock id | unlock id => cases h
  | organizations | organization raw | workspaces raw | workspaceByName rawOrganization rawName =>
    unfold Errand.understood at h
    dsimp only at h
    repeat' split at h
    all_goals cases h

/-- **Only the ping is at the path of the ping.** -/
theorem path_of_ping (h : Errand.of req = .ping) : req.url.path = pingPath := by
  unfold Errand.of at h
  split at h
  · cases h
  · cases allowed_eq_ping h
  · next e hendpoint =>
    obtain rfl := understood_eq_ping (allowed_eq_ping h)
    obtain ⟨parts, hpath, hat⟩ := ofUrl_eq_endpoint_iff.1 hendpoint
    cases hat
    exact hpath

theorem not_authorized (hs : s.requiredToken = some token)
    (h : req.headers.find? "authorization" ≠ some ("Bearer " ++ token)) :
    isAuthorized s req.headers = false := by
  rw [isAuthorized, hs]
  dsimp only
  cases hvalue : req.headers.find? "authorization" with
  | none => rfl
  | some value =>
    have hne : value ≠ "Bearer " ++ token := by
      rintro rfl
      exact h hvalue
    simp [hne]

/-- The answer to an errand that is not let through. -/
def Errand.refusal : Errand → Http.Response
  | settled r => r
  | _ => failure 401 "unauthorized" ""

/-- **A stranger is answered without a look at the data.** -/
theorem handle_of_stranger (hs : s.requiredToken = some token) (h : isStranger token req = true)
    (now : Instant) : handle now req s = (s, asAsked req.method (Errand.of req).refusal) := by
  obtain ⟨hpath, hvalue⟩ : req.url.path ≠ pingPath ∧
      req.headers.find? "authorization" ≠ some ("Bearer " ++ token) := by
    simpa [isStranger] using h
  have hgate : ∀ answer, guarded s req.headers answer = (s, failure 401 "unauthorized" "") := by
    intro answer
    rw [guarded, not_authorized hs hvalue, if_neg Bool.false_ne_true]
  rw [handle_eq]
  cases herrand : Errand.of req with
  | settled r => rfl
  | ping => exact absurd (path_of_ping herrand) hpath
  | question q =>
    rw [Errand.run, hgate]
    rfl
  | order o =>
    rw [Errand.run, hgate]
    rfl

end Request

/-! ## 2. All requests -/

section Runs

variable {token : String} {s s' : Store}

theorem requiredToken_handle (now : Instant) (req : Http.Request) (s : Store) :
    (handle now req s).1.requiredToken = s.requiredToken := by
  rcases handle_cases now req s with ⟨o, -, hdone⟩ | ⟨-, hsame⟩
  · generalize (handle now req s).1 = s', (handle now req s).2 = r at hdone
    cases hdone <;> rfl
  · rw [hsame]

/-- What strangers see of a service: their requests, and the answers to these. -/
def viewOfStrangers (token : String) (log : List Exchange) : List Exchange :=
  log.filter fun x => isStranger token x.1

/-- The requests of strangers. -/
def fromStrangers (token : String) (arrivals : List Arrival) : List Http.Request :=
  (arrivals.map (·.2)).filter (isStranger token)

theorem view_eq (hs : s.requiredToken = some token) (arrivals : List Arrival) :
    viewOfStrangers token (exchanges s arrivals) = (fromStrangers token arrivals).map
      fun req => (req, asAsked req.method (Errand.of req).refusal) := by
  induction arrivals generalizing s with
  | nil => rfl
  | cons a arrivals ih =>
    obtain ⟨now, req⟩ := a
    have hrest := ih ((requiredToken_handle now req s).trans hs)
    simp only [viewOfStrangers, fromStrangers, exchanges, List.map_cons, List.filter_cons] at hrest ⊢
    by_cases h : isStranger token req = true
    · rw [if_pos h, if_pos h, List.map_cons, hrest, handle_of_stranger hs h]
    · rw [if_neg h, if_neg h, hrest]

end Runs

/-- **Strangers learn nothing.**  A request that is no ping and does not show the secret is
    answered alike, at any time, by any two services with that secret, and changes neither.
    So in the long run, too, strangers see the same whatever the services know, and whatever
    others ask them to do. -/
theorem strangers_learn_nothing {token : String} {s s' : Store} (hs : s.requiredToken = some token)
    (hs' : s'.requiredToken = some token) :
    (∀ now now' req, isStranger token req = true →
      (handle now req s).1 = s ∧ (handle now req s).2 = (handle now' req s').2) ∧
    ∀ arrivals arrivals', fromStrangers token arrivals = fromStrangers token arrivals' →
      viewOfStrangers token (exchanges s arrivals) = viewOfStrangers token (exchanges s' arrivals') := by
  constructor
  · intro now now' req h
    rw [handle_of_stranger hs h, handle_of_stranger hs' h]
    exact ⟨rfl, rfl⟩
  · intro arrivals arrivals' hsame
    rw [view_eq hs, view_eq hs', hsame]

/-- A stranger who asks for the lock of an example workspace, with a word of the secret, is
    told the same by a service that has no workspaces at all. -/
theorem lock_tells_strangers_nothing :
    let s : Store := { exampleStore with requiredToken := some "open sesame" }
    let s' : Store := { Store.empty with requiredToken := some "open sesame" }
    let req : Http.Request :=
      { localRequest .post ["workspaces", "ws-stageapp0000001", "actions", "lock"] none with
        headers := .ofList [("authorization", "Bearer sesame")] }
    s.requiredToken = some "open sesame" ∧ s'.requiredToken = some "open sesame" ∧
      isStranger "open sesame" req = true ∧
      ∀ now, (handle now req s).1 = s ∧ (handle now req s).2 = (handle now req s').2 ∧
        (handle now req s).2.status = 401 := by
  intro s s' req
  have hstranger : isStranger "open sesame" req = true := by
    decide +kernel
  refine ⟨rfl, rfl, hstranger, fun now => ?_⟩
  have hs : s.requiredToken = some "open sesame" := rfl
  have hs' : s'.requiredToken = some "open sesame" := rfl
  obtain ⟨hsame, hanswer⟩ := (strangers_learn_nothing hs hs').1 now now req hstranger
  refine ⟨hsame, hanswer, ?_⟩
  rw [handle_of_stranger rfl hstranger]
  decide +kernel

end TerraformCloud.Simulator
