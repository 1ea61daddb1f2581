/-
  TerraformCloud/Proofs/Sending/SendsOnly.lean
  ============================================
  **What a program sends is what its pieces send.**

  A program is made of calls, one after the other and in loops.  Each piece is the same over
  a link with a memory, and adds its own actions to the memory (`Link.SendsOnly`).  So what
  holds of the requests of every call holds of the requests of the whole program, and no
  proof about a program has to look at the actions of a call again.
-/
import TerraformCloud.Proofs.Sending.Trace
import TerraformCloud.Walk

namespace TerraformCloud

namespace Link

variable {σ β γ : Type}

/-- What is run over a link sends requests of one kind only: over the link with a memory it
    is the same run, and what it adds to the memory sends nothing else. -/
def SendsOnly (P : Http.Request → Prop) (run : β × σ)
    (recorded : List (Action σ) → β × σ × List (Action σ)) : Prop :=
  ∃ trace, (∀ log, recorded log = (run.1, run.2, log ++ trace)) ∧ ∀ sent ∈ sentRequests trace, P sent

namespace SendsOnly

variable {P Q : Http.Request → Prop} {run : β × σ} {recorded : List (Action σ) → β × σ × List (Action σ)}

/-- A piece that does nothing with the world. -/
theorem nothing (b : β) (s : σ) : SendsOnly P (b, s) fun log => (b, s, log) := by
  refine ⟨[], fun log => ?_, fun sent hsent => ?_⟩
  · rw [List.append_nil]
  · cases hsent

/-- The requests in the memory are the ones from before, and some of this kind. -/
theorem sentRequests_eq (h : SendsOnly P run recorded) (log : List (Action σ)) :
    ∃ more, sentRequests (recorded log).2.2 = sentRequests log ++ more ∧ ∀ sent ∈ more, P sent := by
  obtain ⟨trace, hrecorded, hsent⟩ := h
  exact ⟨sentRequests trace, by rw [hrecorded, sentRequests_append], hsent⟩

theorem mono (h : SendsOnly P run recorded) (himp : ∀ sent, P sent → Q sent) : SendsOnly Q run recorded := by
  obtain ⟨trace, hrecorded, hsent⟩ := h
  exact ⟨trace, hrecorded, fun sent hmem => himp sent (hsent sent hmem)⟩

/-- What is made of a result does nothing with the world. -/
theorem map (f : β → γ) (h : SendsOnly P run recorded) :
    SendsOnly P (f run.1, run.2) fun log => (f (recorded log).1, (recorded log).2) := by
  obtain ⟨trace, hrecorded, hsent⟩ := h
  refine ⟨trace, fun log => ?_, hsent⟩
  dsimp only
  rw [hrecorded]

/-- **One piece after the other.**  The whole goes on with the memory of the first piece. -/
theorem andThen {next : γ × σ} {recordedNext whole : List (Action σ) → γ × σ × List (Action σ)}
    (h : SendsOnly P run recorded) (hnext : SendsOnly P next recordedNext)
    (hwhole : ∀ log log', recorded log = (run.1, run.2, log') → whole log = recordedNext log') :
    SendsOnly P next whole := by
  obtain ⟨trace, hrecorded, hsent⟩ := h
  obtain ⟨trace', hrecorded', hsent'⟩ := hnext
  refine ⟨trace ++ trace', fun log => ?_, fun sent hmem => ?_⟩
  · rw [hwhole log _ (hrecorded log), hrecorded', List.append_assoc]
  · rw [sentRequests_append, List.mem_append] at hmem
    exact hmem.elim (hsent sent) (hsent' sent)

end SendsOnly

/-! ## 1. Calls -/

variable (link : Link σ) (c : Client) (r : ApiRequest)

theorem sendsOnly_send (s : σ) :
    SendsOnly (fun sent => r.wire c = .ok sent) (link.send c r s) fun log => link.traced.send c r (s, log) := by
  cases hwire : r.wire c with
  | error e =>
    have hfails : ∀ {τ : Type} (other : Link τ) (t : τ), other.send c r t = (.error e, t) := by
      intro τ other t
      rw [send, hwire]
    simp only [hfails]
    exact .nothing _ _
  | ok request =>
    obtain ⟨trace, result, s', hsends, hcall, hlog⟩ := send_isRun link hwire s
    refine ⟨trace, fun log => ?_, fun sent hmem => ?_⟩
    · rw [hlog, hcall]
    · exact congrArg Except.ok (hsends.eq_of_mem_sentRequests sent hmem).symm

/-- **A call sends its own request only.** -/
theorem sendsOnly_fetch {α : Type} (read : Http.Response → Except ApiError α) (s : σ) :
    SendsOnly (fun sent => r.wire c = .ok sent) (link.fetch c r read s)
      fun log => link.traced.fetch c r read (s, log) := by
  obtain ⟨trace, hlog, hsent⟩ := link.sendsOnly_send c r s
  refine ⟨trace, fun log => ?_, hsent⟩
  dsimp only at hlog ⊢
  unfold fetch
  rw [hlog]
  rcases link.send c r s with ⟨e | response, s'⟩ <;> rfl

/-- A pause is recorded, but is no request. -/
theorem sentRequests_wait (delay : Duration) (s : σ) (log : List (Action σ)) :
    sentRequests (link.traced.wait delay (s, log)).2.2 = sentRequests log := by
  change sentRequests (log ++ [_]) = _
  rw [sentRequests_append]
  exact List.append_nil _

/-- What succeeds has sent something. -/
theorem Sends.sentRequests_ne_nil {link : Link σ} {policy : RetryPolicy} {request : Http.Request}
    {left retries : Nat} {s s' : σ} {trace : List (Action σ)} {result : Except ApiError Http.Response}
    (sends : Sends link policy request left retries s trace result s')
    (hok : ∃ response, result = .ok response) : sentRequests trace ≠ [] := by
  obtain ⟨response, hresponse⟩ := hok
  cases sends with
  | cancelled _ => cases hresponse
  | noSlot _ _ => cases hresponse
  | _ => exact List.cons_ne_nil _ _

variable {link c r}

theorem sentRequests_send_ne_nil {s s' : σ} {response : Http.Response}
    (h : link.send c r s = (.ok response, s')) : sentRequests (link.traced.send c r (s, [])).2.2 ≠ [] := by
  cases hwire : r.wire c with
  | error e =>
    rw [send, hwire] at h
    cases h
  | ok request =>
    obtain ⟨trace, result, s', hsends, hcall, hlog⟩ := send_isRun link hwire s
    rw [hcall] at h
    cases h
    have hsend : link.traced.send c r (s, []) = (.ok response, s', trace) := hlog []
    rw [hsend]
    exact hsends.sentRequests_ne_nil ⟨_, rfl⟩

theorem sentRequests_fetch_ne_nil {α : Type} {read : Http.Response → Except ApiError α} {s s' : σ} {a : α}
    (h : link.fetch c r read s = (.ok a, s')) : sentRequests (link.traced.fetch c r read (s, [])).2.2 ≠ [] := by
  have hsame : (link.traced.fetch c r read (s, [])).2 = (link.traced.send c r (s, [])).2 := by
    unfold fetch
    split <;> next heq => rw [heq]
  rw [hsame]
  rw [fetch] at h
  split at h
  · cases h
  · next hsend => exact sentRequests_send_ne_nil hsend

end Link

/-! ## 2. Walks -/

namespace Walk

open Link (Action SendsOnly)

variable {σ ο ι π : Type} [Paginated ο] [PageInfo π] {P : Http.Request → Prop}
  {fetch : ο → σ → Result σ (Page ι π)}
  {recorded : ο → σ × List (Action σ) → Result (σ × List (Action σ)) (Page ι π)}

/-- **A walk sends what its fetches send.** -/
theorem sendsOnly_collectFrom (h : ∀ o s, SendsOnly P (fetch o s) fun log => recorded o (s, log))
    (options : ο) (number : Nat) (collected : List ι) (s : σ) :
    SendsOnly P (collectFrom fetch options number collected s)
      fun log => collectFrom recorded options number collected (s, log) := by
  have hfirst := h (at_ options number) s
  rcases hfetch : fetch (at_ options number) s with ⟨answer, s₁⟩
  rw [hfetch] at hfirst
  cases answer with
  | error e =>
    rw [collectFrom, hfetch]
    refine hfirst.andThen (.nothing _ s₁) fun log log' hlog => ?_
    rw [collectFrom, hlog]
  | ok page =>
    cases hnext : following number page.pagination with
    | none =>
      rw [collectFrom, hfetch]
      dsimp only
      rw [hnext]
      refine hfirst.andThen (.nothing _ s₁) fun log log' hlog => ?_
      rw [collectFrom, hlog]
      dsimp only
      rw [hnext]
    | some next =>
      have hforward := next.property
      have hrest := sendsOnly_collectFrom h options next.val (collected ++ page.items) s₁
      rw [collectFrom, hfetch]
      dsimp only
      rw [hnext]
      refine hfirst.andThen hrest fun log log' hlog => ?_
      rw [collectFrom, hlog]
      dsimp only
      rw [hnext]
termination_by lastPage - number
decreasing_by omega

end Walk
end TerraformCloud
