/-
  TerraformCloud/Proofs/Simulator/Atomic.lean
  ===========================================
  **Requests that fail, or only look, change nothing.**

  An order is carried out as a whole or refused as a whole (`obey_cases`), and only what
  is carried out is answered with success.  So a service whose data has changed, be it the
  number of its next id, has said so to somebody who gave an order
  (`done_of_changed`), and whatever ends in a failure leaves no trace.

  In the long run requests that failed or only looked can be left out: the service ends up
  the same, and all other requests are answered the same (`effective`).
-/
import TerraformCloud.Proofs.Simulator.Granted

namespace TerraformCloud.Simulator

/-! ## 1. One request -/

section Request

variable {now : Instant} {req : Http.Request} {s : Store}

/-- **Who changes something is told that it was done**, and has not just asked. -/
theorem done_of_changed (h : (handle now req s).1 ≠ s) :
    isDone (handle now req s).2 = true ∧ (req.method = .post ∨ req.method = .delete) := by
  rcases handle_cases now req s with ⟨o, hdeed, hdone⟩ | ⟨-, hsame⟩
  · exact ⟨hdone.isDone, method_of_order (order_of_deed? hdeed)⟩
  · exact absurd hsame h

/-- Whether a request was more than a question and did not fail. -/
def isEffective (x : Exchange) : Bool := x.1.method ≠ .get && x.2.status < 400

theorem isEffective_eq_false_iff {x : Exchange} :
    isEffective x = false ↔ 400 ≤ x.2.status ∨ x.1.method = .get := by
  rw [isEffective, Bool.and_eq_false_iff, decide_eq_false_iff_not, decide_eq_false_iff_not, not_not,
    Nat.not_lt]
  exact or_comm

theorem isEffective_of_changed (h : (handle now req s).1 ≠ s) :
    isEffective (req, (handle now req s).2) = true := by
  obtain ⟨hdone, hmethod⟩ := done_of_changed h
  have hstatus : (handle now req s).2.status < 300 := by
    rw [isDone, Bool.and_eq_true] at hdone
    exact of_decide_eq_true hdone.2
  have hasks : req.method ≠ .get := by
    rcases hmethod with hmethod | hmethod <;> rw [hmethod] <;> decide
  rw [isEffective, Bool.and_eq_true]
  exact ⟨decide_eq_true hasks, decide_eq_true (Nat.lt_trans hstatus (by decide))⟩

/-- **A request that fails, or only looks, changes nothing.** -/
theorem same_of_not_effective (h : isEffective (req, (handle now req s).2) = false) :
    (handle now req s).1 = s := by
  by_contra hchanged
  rw [isEffective_of_changed hchanged] at h
  cases h

end Request

/-! ## 2. All requests -/

/-- The requests among these that were more than questions and did not fail. -/
def effective (s : Store) : List Arrival → List Arrival
  | [] => []
  | a :: rest =>
    if isEffective (a.2, (handle a.1 a.2 s).2) then a :: effective (handle a.1 a.2 s).1 rest
    else effective s rest

/-- Without the others the service ends up the same. -/
theorem after_effective (s : Store) (arrivals : List Arrival) :
    after s (effective s arrivals) = after s arrivals := by
  induction arrivals generalizing s with
  | nil => rfl
  | cons a rest ih =>
    rw [effective]
    split
    · exact ih (handle a.1 a.2 s).1
    · next hno =>
      have hsame := same_of_not_effective (Bool.eq_false_iff.2 hno)
      calc after s (effective s rest) = after s rest := ih s
        _ = after (handle a.1 a.2 s).1 rest := by rw [hsame]

/-- Without the others the rest is answered the same. -/
theorem exchanges_effective (s : Store) (arrivals : List Arrival) :
    exchanges s (effective s arrivals) = (exchanges s arrivals).filter isEffective := by
  induction arrivals generalizing s with
  | nil => rfl
  | cons a rest ih =>
    rw [effective, exchanges, List.filter_cons]
    split
    · rw [exchanges, ih]
    · next hno =>
      have hsame := same_of_not_effective (Bool.eq_false_iff.2 hno)
      rw [hsame, ih]

/-- **Failures leave no trace.**  A request that is answered with a status of 400 or above,
    or that only asks, leaves all that a service knows as it is.  So of any number of
    requests these can be left out: what the service knows in the end is the same, and so
    are its answers to the others. -/
theorem failures_leave_no_trace (s : Store) :
    (∀ now req, 400 ≤ (handle now req s).2.status ∨ req.method = .get → (handle now req s).1 = s) ∧
    ∀ arrivals, after s (effective s arrivals) = after s arrivals ∧
      exchanges s (effective s arrivals) = (exchanges s arrivals).filter isEffective := by
  constructor
  · intro now req h
    exact same_of_not_effective (isEffective_eq_false_iff.2 h)
  · intro arrivals
    exact ⟨after_effective s arrivals, exchanges_effective s arrivals⟩

/-- Whoever asks for a name that is taken does not use up an id. -/
theorem refused_name_uses_no_id :
    let now := onTheHour 0 ((Date.of? 2024 1 1).get rfl)
    (handle now (requestNew "staging-app") exampleStore).2.status = 422 ∧
      (handle now (requestNew "staging-app") exampleStore).1 = exampleStore := by
  intro now
  let fields : newWorkspaceFields.Record := (some "staging-app", none, none, none, none, [], ())
  have herrand : Errand.of (requestNew "staging-app") = .order (.createWorkspace "acme" fields) := by
    decide +kernel
  have hknown : (exampleStore.organizations.find? "acme").isSome = true := by
    decide +kernel
  have htaken : (exampleStore.findWorkspace? "acme" "staging-app").isSome = true := by
    cbv
  have hrefused : (Order.createWorkspace "acme" fields).obey now exampleStore =
      (exampleStore, failure 422 "invalid attribute" "Name has already been taken") := by
    rw [Order.obey, if_pos hknown, createWorkspace_eq]
    exact if_pos htaken
  have hstatus : (handle now (requestNew "staging-app") exampleStore).2.status = 422 := by
    rw [handle_of_order herrand, hrefused]
    rfl
  refine ⟨hstatus, (failures_leave_no_trace exampleStore).1 now _ (.inl ?_)⟩
  rw [hstatus]
  decide

end TerraformCloud.Simulator
