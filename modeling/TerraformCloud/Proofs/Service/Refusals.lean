/-
  TerraformCloud/Proofs/Service/Refusals.lean
  ===========================================
  **Bad arguments are refused before anything is done with the world.**

  A refusal is a function of the operation alone, so it does not matter over which link an
  operation is performed, and in which state.  Nor does it matter what the operation is
  performed for: on its own, as one page or as all pages of a list, or to open a log, which
  would take several requests.  A link that remembers what is done with it remembers nothing.
-/
import TerraformCloud.LogReader
import TerraformCloud.Proofs.Sending.Trace
import TerraformCloud.Proofs.Service.Demands
import TerraformCloud.Walk.Listing

namespace TerraformCloud

/-- What is run over links is refused: it fails with a cause, leaves the world as it is, and
    neither takes a slot nor makes an attempt nor waits. -/
def Refuses (α : Type → Type) (run : {σ : Type} → Link σ → σ → Result σ (α σ)) (cause : Rejection) :
    Prop :=
  ∀ {σ : Type} (link : Link σ) (s : σ),
    run link s = (.error (.rejected cause), s) ∧
      run link.traced (s, []) = (.error (.rejected cause), s, [])

/-- What fails at once over every link is refused over links with a memory as well. -/
theorem refuses_of_fails {α : Type → Type} {run : {σ : Type} → Link σ → σ → Result σ (α σ)}
    {cause : Rejection}
    (h : ∀ {σ : Type} (link : Link σ) (s : σ), run link s = (.error (.rejected cause), s)) :
    Refuses α run cause :=
  fun link s => ⟨h link s, h link.traced (s, [])⟩

/-- Whatever an operation is performed for, it is refused. -/
structure IsRefused (c : Client) (op : Operation) (cause : Rejection) : Prop where
  performed : Refuses (fun _ => op.answer.Value) (fun link => op.perform link c) cause
  page : ∀ l : Listing, l.operation = op → ∀ kind, Refuses
    (fun _ => Page (Resource kind.Attributes) Pagination) (fun link => l.fetch link c kind) cause
  pages : ∀ l : Listing, l.operation = op → ∀ kind, Refuses
    (fun _ => List (Resource kind.Attributes)) (fun link => l.collect link c kind) cause
  log : ∀ phase id, op = .phase phase id → Refuses
    (fun σ => Url × LogReader.Source σ) (fun link => LogReader.openLog link c phase id) cause

section Refusing

variable {σ : Type} {c : Client} {cause : Rejection}

theorem Operation.request_of_call {op : Operation} (h : op.call = .error (.rejected cause)) :
    op.request c = .error (.rejected cause) := by
  rw [request, h, Except.bind]

theorem Operation.perform_of_call {op : Operation} (h : op.call = .error (.rejected cause))
    (link : Link σ) (s : σ) : op.perform link c s = (.error (.rejected cause), s) := by
  rw [perform, request_of_call h]

theorem Listing.fetch_of_call {l : Listing} (h : l.operation.call = .error (.rejected cause))
    (kind : Kind) (link : Link σ) (s : σ) :
    l.fetch link c kind s = (.error (.rejected cause), s) := by
  rw [fetch, Operation.request_of_call h]

/-- A walk ends with its first fetch if that fails. -/
theorem Listing.collect_of_call {l : Listing}
    (h : ∀ p, (l.withPage p).operation.call = .error (.rejected cause)) (kind : Kind)
    (link : Link σ) (s : σ) : l.collect link c kind s = (.error (.rejected cause), s) := by
  have hfirst : (Walk.at_ l 1).fetch link c kind s = (.error (.rejected cause), s) :=
    fetch_of_call (h _) kind link s
  rw [collect, Walk.collectAll, Walk.collectFrom, hfirst]

theorem LogReader.openLog_of_call {phase : Phase} {id : String}
    (h : (Operation.phase phase id).call = .error (.rejected cause)) (link : Link σ) (s : σ) :
    openLog link c phase id s = (.error (.rejected cause), s) := by
  rw [openLog, readPhase, Operation.perform_of_call h link s]

end Refusing

/-- What a list asks for does not depend on the page. -/
theorem Listing.demands_withPage (l : Listing) (p : PageRequest) :
    (l.withPage p).operation.demands = l.operation.demands := by
  cases l <;> rfl

namespace Operation

theorem isRefused {op : Operation} {cause : Rejection} (h : offence? op.demands = some cause)
    (c : Client) : IsRefused c op cause where
  performed := refuses_of_fails (perform_of_call (call_of_offence h))
  page := by
    rintro l rfl kind
    exact refuses_of_fails (Listing.fetch_of_call (call_of_offence h) kind)
  pages := by
    rintro l rfl kind
    -- a walk chooses its pages itself, and all of them ask for the same
    have hcall (p : PageRequest) : (l.withPage p).operation.call = .error (.rejected cause) :=
      call_of_offence ((congrArg offence? (l.demands_withPage p)).trans h)
    apply refuses_of_fails
    exact Listing.collect_of_call hcall kind
  log := by
    rintro phase id rfl
    exact refuses_of_fails (LogReader.openLog_of_call (call_of_offence h))

/-- **Local validation precedes all I/O.**  The identifiers in the path of an operation are
    among its arguments, in order.  If an argument is no identifier, or something is wrong with
    the options, then the operation is refused because of the first demand that is not met,
    whatever it is performed for, and otherwise it stands for a call. -/
theorem refused_before_io (op : Operation) :
    op.identifiers <:+ op.arguments.map (·.2) ∧
    ((∃ a ∈ op.arguments, ¬IsSafe a.2) ∨ (∃ d ∈ op.wants, d.met = false) →
      ∃ cause, offence? op.demands = some cause ∧ ∀ c, IsRefused c op cause) ∧
    ((∀ a ∈ op.arguments, IsSafe a.2) → (∀ d ∈ op.wants, d.met = true) →
      ∃ call, op.call = .ok call) := by
  refine ⟨op.identifiers_suffix, fun hbad => ?_, fun hsafe hmet => ?_⟩
  · cases hfirst : offence? op.demands with
    | some cause => exact ⟨cause, rfl, isRefused hfirst⟩
    | none =>
      obtain ⟨hsafe, hmet⟩ := met_iff.1 (offence?_eq_none_iff.1 hfirst)
      rcases hbad with ⟨a, ha, hunsafe⟩ | ⟨d, hd, hunmet⟩
      · exact absurd (hsafe a ha) hunsafe
      · rw [hmet d hd] at hunmet
        cases hunmet
  · exact exists_call_iff.2 (met_iff.2 ⟨hsafe, hmet⟩)

/-- Of two bad parts of the name of a module, the outer one is the cause. -/
theorem bad_module_refused :
    (∃ a ∈ (Operation.registryModules (.read ⟨"acme", .public_, "große", "vpc", "a/b"⟩)).arguments,
      ¬IsSafe a.2) ∧
    ∀ c, IsRefused c (.registryModules (.read ⟨"acme", .public_, "große", "vpc", "a/b"⟩))
      .invalidNamespace := by
  have hbad : ∃ a ∈ (Operation.registryModules (.read ⟨"acme", .public_, "große", "vpc", "a/b"⟩)).arguments,
      ¬IsSafe a.2 := ⟨(.invalidNamespace, "große"), by decide, by decide⟩
  obtain ⟨cause, hcause, hrefused⟩ := (refused_before_io _).2.1 (.inl hbad)
  have hfirst : offence?
      (Operation.registryModules (.read ⟨"acme", .public_, "große", "vpc", "a/b"⟩)).demands =
        some .invalidNamespace := by decide
  obtain rfl : Rejection.invalidNamespace = cause := Option.some.inj (hfirst.symm.trans hcause)
  exact ⟨hbad, hrefused⟩

end Operation
end TerraformCloud
