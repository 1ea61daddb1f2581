/-
  TerraformCloud/Proofs/Service/Landings.lean
  ===========================================
  **Where requests end up, dots included.**

  Two identifiers are dots, and a request with one of them leaves its route.  It does not
  get far: a word only leads down, and an identifier leads down, stays or goes up by one.
  So the paths on which the request of an operation can end up are a short list, computed
  from its route (`landings`), and a request goes out by the method of its operation
  (`Operation.goesBy`).  Together they tell which operations can end up at a given
  method and path.
-/
import TerraformCloud.Proofs.Service.Addresses

namespace TerraformCloud

/-! ## 1. Methods -/

/-- The method of an operation. -/
def Operation.method : Operation → Http.Method
  | organizations (.create _) | projects (.create _ _) | workspaces (.create _ _)
  | workspaces (.lock _ _) | workspaces (.unlock _) | workspaces (.forceUnlock _)
  | runs (.create _) | runs (.act _ _ _) | workspaceVariables (.create _ _)
  | variableSets (.create _ _) | variableSets (.applyToWorkspaces _ _)
  | notifications (.create _ _) | notifications (.verify _) | policies (.create _ _)
  | registryProviders (.create _ _) => .post
  | organizations (.update _ _) | projects (.update _ _) | workspaces (.update _ _ _)
  | workspaces (.updateById _ _) | workspaceVariables (.update _ _ _)
  | variableSets (.update _ _) | notifications (.update _ _) | policies (.update _ _) => .patch
  | organizations (.delete _) | projects (.delete _) | workspaces (.delete _ _)
  | workspaces (.deleteById _) | workspaceVariables (.delete _ _) | variableSets (.delete _)
  | variableSets (.removeFromWorkspaces _ _) | notifications (.delete _) | policies (.delete _)
  | registryProviders (.delete _) => .delete
  | _ => .get

/-- A call, if it is made, goes out by a method. -/
def GoesBy (method : Http.Method) (call : Except ApiError Call) : Prop :=
  ∀ made, call = .ok made → made.method = method

theorem goesBy_pure (made : Call) : GoesBy made.method (pure made) := by
  intro _ h
  cases h
  rfl

theorem goesBy_resource (method : Http.Method) (segments : List String) (draft : Draft) :
    GoesBy method (Call.resource method segments draft) := by
  intro made hmade
  cases hbody : Body.resource draft with
  | error e =>
    rw [Call.resource, hbody] at hmade
    cases hmade
  | ok body =>
    rw [Call.resource, hbody] at hmade
    cases hmade
    rfl

theorem GoesBy.after {method : Http.Method} {α : Type} {check : Except ApiError α}
    {call : α → Except ApiError Call} (h : ∀ a, GoesBy method (call a)) :
    GoesBy method (check >>= call) := by
  intro made hmade
  obtain ⟨a, -, hmade⟩ := ok_of_bind hmade
  exact h a made hmade

/-- **Every call goes out by the method of its operation.** -/
theorem Operation.goesBy (op : Operation) : GoesBy op.method op.call := by
  cases op with
  | phase which id => exact .after fun _ => goesBy_pure _
  | _ op =>
    cases op
    all_goals
      repeat' first
        | exact goesBy_pure _
        | exact goesBy_resource _ _ _
        | refine GoesBy.after fun _ => ?_

/-! ## 2. Landings -/

/-- The paths, backwards, on which a walk along parts may end.  It ends with a slash where
    the last part is a dot. -/
def landings (stack : List String) : List Part → List (List String)
  | [] => [stack]
  | .word w :: parts => landings (w :: stack) parts
  | [.identifier s] => [s :: stack, "" :: stack, "" :: stack.tail]
  | .identifier s :: p :: parts =>
    landings (s :: stack) (p :: parts) ++ landings stack (p :: parts)
      ++ landings stack.tail (p :: parts)

namespace Url

/-- A step leads down, stays or goes up. -/
theorem step_cases (stack : List String) (s : String) :
    step stack s = s :: stack ∨ step stack s = stack ∨ step stack s = stack.tail := by
  unfold step
  split
  · exact .inr (.inr rfl)
  · split
    · exact .inr (.inl rfl)
    · exact .inl rfl

theorem step_ne_cons {stack : List String} {s : String} (h : IsDot s) : step stack s ≠ s :: stack := by
  intro heq
  have hlength := congrArg List.length heq
  unfold step at hlength
  rcases h with hdouble | hsingle
  · rw [if_pos hdouble, List.length_tail, List.length_cons] at hlength
    omega
  · rw [if_pos hsingle] at hlength
    split at hlength
    · rw [List.length_tail, List.length_cons] at hlength
      omega
    · simp at hlength

theorem step_word {w : String} (h : (Part.word w).Valid) (stack : List String) :
    step stack w = w :: stack := by
  apply step_of_not_isDot
  rw [isDot_identifier h.1, not_or]
  exact h.2

/-- **A walk ends at a landing.** -/
theorem walk_mem_landings {parts : List Part} (h : ValidParts parts) (stack : List String) :
    ∃ top ∈ landings stack parts, walk stack (parts.map Part.text) = top.reverse := by
  induction parts generalizing stack with
  | nil => exact ⟨stack, List.mem_singleton_self _, rfl⟩
  | cons p parts ih =>
    have hp := h p List.mem_cons_self
    have hrest := ih fun q hq => h q (List.mem_cons_of_mem _ hq)
    cases parts with
    | nil =>
      cases p with
      | word w =>
        refine ⟨w :: stack, List.mem_singleton_self _, ?_⟩
        have hdot := (isDot_identifier hp.1).not.2 (not_or.2 hp.2)
        rcases walk_last stack w with ⟨hdots, -⟩ | ⟨-, hlast⟩
        · exact absurd hdots hdot
        · exact hlast.trans (congrArg List.reverse (step_of_not_isDot hdot))
      | identifier s =>
        -- a last part that is a dot leaves a slash behind
        rcases walk_last stack s with ⟨hdot, hlast⟩ | ⟨hdot, hlast⟩
        · rcases step_cases stack s with hstep | hstep | hstep
          · exact absurd hstep (step_ne_cons hdot)
          · exact ⟨"" :: stack, by simp [landings], hlast.trans (by rw [hstep])⟩
          · exact ⟨"" :: stack.tail, by simp [landings], hlast.trans (by rw [hstep])⟩
        · refine ⟨s :: stack, by simp [landings], ?_⟩
          exact hlast.trans (congrArg List.reverse (step_of_not_isDot hdot))
    | cons q parts =>
      rw [List.map_cons, walk_cons stack p.text (by simp)]
      cases p with
      | word w =>
        rw [Part.text, step_word hp]
        exact hrest (w :: stack)
      | identifier s =>
        -- each way to go on has its own part of the landings
        obtain ⟨top, htop, hwalk⟩ := hrest (step stack s)
        refine ⟨top, ?_, hwalk⟩
        simp only [landings, List.mem_append]
        rcases step_cases stack s with hstep | hstep | hstep <;> rw [hstep] at htop
        · exact .inl (.inl htop)
        · exact .inl (.inr htop)
        · exact .inr htop

end Url

theorem Operation.method_of_request {c : Client} {op : Operation} {r : ApiRequest}
    (hr : op.request c = .ok r) : r.method = op.method := by
  obtain ⟨call, hcall, hrequest⟩ := ok_of_bind hr
  obtain ⟨u, params, -, -, rfl⟩ := Call.request_eq_ok_iff.1 hrequest
  exact op.goesBy call hcall

/-- **A request ends up at a landing of its route.** -/
theorem Operation.landing {c : Client} (hpath : c.apiUrl.path = .segments ["api", "v2", ""])
    (hscheme : c.apiUrl.scheme ≠ Url.fileScheme) {op : Operation} (hbase : op.base = .api)
    {r : ApiRequest} (hr : op.request c = .ok r) :
    ∃ top ∈ landings ["v2", "api"] op.parts, r.address.path = .segments top.reverse := by
  obtain ⟨hvalid, hjoin⟩ := Operation.address_of_request hr
  obtain ⟨u, hu, hresolved⟩ := Url.join_eq_resolved hpath op.texts_ne_nil hvalid.identifiers
  rw [hbase, Client.baseUrl, hu, Except.ok.injEq] at hjoin
  obtain ⟨top, htop, hwalk⟩ := Url.walk_mem_landings hvalid ["v2", "api"]
  refine ⟨top, htop, ?_⟩
  rw [← hjoin, hresolved, Url.resolved, if_neg hscheme, ← hwalk]
  rfl

end TerraformCloud
