/-
  TerraformCloud/Proofs/CommandLine/AllOrNothing.lean
  ===================================================
  **The program only reads, and prints all of a result or nothing.**

  A command stands for reading a resource or for reading pages of a list, and each of these
  is a request by `GET`, so whatever a command sends, it only reads
  (`Command.sendsOnly_perform`).  A run sends nothing before the ping, and nothing after a
  ping that failed.

  A result is printed when all of it is there: the resource, or the items of every page that
  was fetched (`Command.Prints`).  As JSON a list is one array, which can be read again
  (`parse?_resources`).  Everything else ends without output, and with a complaint that
  begins as every complaint does, unless the answer to the ping announces a limit that is
  too slow to be counted.  Such an answer ends the program where it is read.
-/
import TerraformCloud.CommandLine.Program
import TerraformCloud.Proofs.Json.Indented
import TerraformCloud.Proofs.JsonApi.RoundTrip
import TerraformCloud.Proofs.Sending.Crashes
import TerraformCloud.Proofs.Sending.SendsOnly
import TerraformCloud.Proofs.Service.Landings
import TerraformCloud.Proofs.Walk.Fetches
import TerraformCloud.Proofs.Walk.Simulated

namespace TerraformCloud

open Link (Action SendsOnly sentRequests)

variable {σ : Type}

/-! ## 1. Requests that only read -/

theorem ApiRequest.wire_method {c : Client} {r : ApiRequest} {request : Http.Request}
    (h : r.wire c = .ok request) : request.method = r.method := by
  obtain ⟨headers, -, rfl⟩ := r.wire_eq h
  exact Http.Request.of_method _ _ _ _

theorem Listing.method_operation (l : Listing) : l.operation.method = .get := by
  cases l <;> rfl

/-- Fetching what an operation that reads stands for. -/
theorem sendsOnly_get {α : Type} (link : Link σ) {c : Client} {r : ApiRequest} (hmethod : r.method = .get)
    (read : Http.Response → Except ApiError α) (s : σ) :
    SendsOnly (fun sent => sent.method = .get) (link.fetch c r read s)
      fun log => link.traced.fetch c r read (s, log) := by
  refine (link.sendsOnly_fetch c r read s).mono fun sent hsent => ?_
  rw [ApiRequest.wire_method hsent, hmethod]

/-- **A page is only read.** -/
theorem Listing.sendsOnly_fetch (link : Link σ) (c : Client) (kind : Kind) (l : Listing) (s : σ) :
    SendsOnly (fun sent => sent.method = .get) (l.fetch link c kind s)
      fun log => l.fetch link.traced c kind (s, log) := by
  unfold Listing.fetch
  cases hrequest : l.operation.request c with
  | error e => exact .nothing _ s
  | ok r =>
    have hmethod : r.method = .get := (Operation.method_of_request hrequest).trans l.method_operation
    exact sendsOnly_get link hmethod _ s

theorem Listing.sendsOnly_collect (link : Link σ) (c : Client) (kind : Kind) (l : Listing) (s : σ) :
    SendsOnly (fun sent => sent.method = .get) (l.collect link c kind s)
      fun log => l.collect link.traced c kind (s, log) :=
  Walk.sendsOnly_collectFrom (Listing.sendsOnly_fetch link c kind) l 1 [] s

namespace CommandLine

theorem Entity.method_reading {e : Entity} {org : Option String} {id : String} {op : Operation}
    (h : e.reading org id = .ok op) : op.method = .get := by
  cases e <;> cases org <;> cases h <;> rfl

/-- **Whatever a command sends, it only reads.** -/
theorem Command.sendsOnly_perform (link : Link σ) (c : Client) (json : Bool) (organization : Option String)
    (command : Command) (s : σ) :
    SendsOnly (fun sent => sent.method = .get) (command.perform link c json organization s)
      fun log => command.perform link.traced c json organization (s, log) := by
  cases command with
  | get e id =>
    unfold Command.perform
    dsimp only
    cases hrequest : (e.reading organization id).bind fun op => op.request c with
    | error err => exact .nothing _ s
    | ok r =>
      obtain ⟨op, hop, hr⟩ := ok_of_bind hrequest
      have hmethod : r.method = .get := (Operation.method_of_request hr).trans (Entity.method_reading hop)
      exact (sendsOnly_get link hmethod _ s).map (Except.map (showOne json e))
  | list e workspaceId page pageSize all =>
    unfold Command.perform
    dsimp only
    cases hlisting : e.listing organization workspaceId ⟨page, pageSize⟩ with
    | error err => exact .nothing _ s
    | ok l =>
      cases all with
      | true => exact (Listing.sendsOnly_collect link c e.kind l s).map (Except.map (showAll json e))
      | false => exact (Listing.sendsOnly_fetch link c e.kind l s).map (Except.map (showPage json e))

/-- What goes wrong with a command is handed on. -/
theorem Command.crashFree_perform {link : Link σ} (hjitter : link.KeepsWindow) {c : Client}
    (hwaits : c.retry.Waits) (json : Bool) (organization : Option String) (command : Command) (s : σ) :
    CrashFree (command.perform link c json organization s).1 := by
  cases command with
  | get e id =>
    unfold Command.perform
    dsimp only
    have hrequest : CrashFree ((e.reading organization id).bind fun op => op.request c) := by
      refine .bind ?_ fun op => op.crashFree_request c
      unfold Entity.reading
      split
      · exact .ok _
      · exact .ok _
      · exact .ok _
      · exact .ok _
      · exact .error rfl
    split
    · next err herror => exact .error (hrequest err herror)
    · next r _ =>
      have hfetch := Link.crashFree_fetch hjitter hwaits r (Answer.crashFree_read (.resource e.kind)) s
      exact hfetch.map (showOne json e)
  | list e workspaceId page pageSize all =>
    unfold Command.perform
    dsimp only
    have hneeded : ∀ option value, CrashFree (needed option value) := by
      intro option value
      cases value with
      | none => exact .error rfl
      | some v => exact .ok v
    have hlisting : CrashFree (e.listing organization workspaceId ⟨page, pageSize⟩) := by
      cases e with
      | organization => exact .ok _
      | workspace => exact (hneeded _ _).map _
      | run => exact (hneeded _ _).map _
      | variable_ => exact (hneeded _ _).map _
    split
    · next err herror => exact .error (hlisting err herror)
    · next l _ =>
      split
      · exact (l.crashFree_collect hjitter hwaits _ s).map _
      · exact (l.crashFree_fetch hjitter hwaits _ s).map _

/-! ## 2. The ping -/

/-- A request is the ping of a client. -/
def IsPing (c : Client) (request : Http.Request) : Prop :=
  ∃ r, c.request .api .get "ping" = .ok r ∧ r.wire c = .ok request

theorem IsPing.method {c : Client} {request : Http.Request} (h : IsPing c request) :
    request.method = .get := by
  obtain ⟨r, hr, hwire⟩ := h
  rw [ApiRequest.wire_method hwire]
  unfold Client.request at hr
  split at hr
  · cases hr
    rfl
  · cases hr

theorem sendsOnly_ping (link : Link σ) (c : Client) (s : σ) :
    SendsOnly (IsPing c) (link.ping c s) fun log => link.traced.ping c (s, log) := by
  unfold Link.ping
  cases hrequest : c.request .api .get "ping" with
  | error e => exact .nothing _ s
  | ok r => exact (link.sendsOnly_fetch c r _ s).mono fun sent hsent => ⟨r, hrequest, hsent⟩

/-- Nobody answers a ping that is not sent. -/
theorem sentRequests_ping_ne_nil {link : Link σ} {c : Client} {s s' : σ} {m : Link.Metadata}
    (h : link.ping c s = (.ok m, s')) : sentRequests (link.traced.ping c (s, [])).2.2 ≠ [] := by
  unfold Link.ping at h ⊢
  cases hrequest : c.request .api .get "ping" with
  | error e =>
    rw [hrequest] at h
    cases h
  | ok r =>
    rw [hrequest] at h
    exact Link.sentRequests_fetch_ne_nil h

/-! ## 3. Results and complaints -/

/-- The pages that are fetched of a list from a state on: one page, or all pages of a walk. -/
inductive Fetches (link : Link σ) (c : Client) (kind : Kind) (l : Listing) (s : σ) :
    Bool → List (Page (Resource kind.Attributes) Pagination) → Prop where
  | page {p : Page (Resource kind.Attributes) Pagination} {s' : σ}
      (fetched : l.fetch link c kind s = (.ok p, s')) : Fetches link c kind l s false [p]
  | walk {pages : List (Page (Resource kind.Attributes) Pagination)}
      {log : List (Walk.Fetched Listing (Resource kind.Attributes) Pagination)}
      {items : List (Resource kind.Attributes)} {s' : σ}
      (walked : Walk.collectAll (Walk.remembering (Listing.fetch link c kind)) l (s, []) = (.ok items, s', log))
      (whole : Walk.IsWalk l log (.ok items)) (answers : log.map Walk.Fetched.answer = pages.map .ok) :
      Fetches link c kind l s true pages

/-- What a command prints when it is done: all that was fetched. -/
inductive Command.Prints (link : Link σ) (c : Client) (json : Bool) (organization : Option String) (s : σ) :
    Command → String → Prop where
  | resource {e : Entity} {id : String} {op : Operation} {r : ApiRequest} {found : e.Resource} {s' : σ}
      (reading : e.reading organization id = .ok op) (request : op.request c = .ok r)
      (fetched : link.fetch c r (Answer.resource e.kind).read s = (.ok found, s')) :
      Prints link c json organization s (.get e id) (showOne json e found)
  | page {e : Entity} {workspaceId : Option String} {number size : Option UInt32} {l : Listing}
      {p : Page e.Resource Pagination} (listing : e.listing organization workspaceId ⟨number, size⟩ = .ok l)
      (fetched : Fetches link c e.kind l s false [p]) :
      Prints link c json organization s (.list e workspaceId number size false) (showPage json e p)
  | pages {e : Entity} {workspaceId : Option String} {number size : Option UInt32} {l : Listing}
      {pages : List (Page e.Resource Pagination)}
      (listing : e.listing organization workspaceId ⟨number, size⟩ = .ok l)
      (fetched : Fetches link c e.kind l s true pages) :
      Prints link c json organization s (.list e workspaceId number size true)
        (showAll json e (pages.flatMap Page.items))

theorem ok_of_map {α β : Type} {f : α → β} {result : Except ApiError α} {b : β}
    (h : result.map f = .ok b) : ∃ a, result = .ok a ∧ f a = b := by
  cases result with
  | error e => cases h
  | ok a => exact ⟨a, rfl, Except.ok.inj h⟩

/-- All pages of a list are fetched when its items are there. -/
theorem fetches_of_collect {link : Link σ} {c : Client} {kind : Kind} {l : Listing} {s s' : σ}
    {items : List (Resource kind.Attributes)} (h : l.collect link c kind s = (.ok items, s')) :
    ∃ pages, Fetches link c kind l s true pages ∧ items = pages.flatMap Page.items := by
  obtain ⟨log, result, s'', hwalked, hcollect, hlog⟩ :=
    Walk.collectFrom_walked (Listing.fetch link c kind) l 1 [] s
  obtain ⟨hitems, rfl⟩ := Prod.mk.inj (hcollect.symm.trans h)
  obtain ⟨collected, rfl, rfl⟩ := ok_of_map hitems
  have hwalk := hwalked.isWalk
  obtain ⟨pages, hanswers, hpages⟩ := hwalk.exists_pages
  exact ⟨pages, .walk (hlog []) hwalk hanswers, hpages⟩

/-- **What is printed is what was fetched.** -/
theorem Command.prints_of_perform {link : Link σ} {c : Client} {json : Bool} {organization : Option String}
    {command : Command} {s s' : σ} {text : String}
    (h : command.perform link c json organization s = (.ok text, s')) :
    command.Prints link c json organization s text := by
  cases command with
  | get e id =>
    unfold Command.perform at h
    dsimp only at h
    cases hrequest : (e.reading organization id).bind fun op => op.request c with
    | error err =>
      rw [hrequest] at h
      cases h
    | ok r =>
      rw [hrequest] at h
      obtain ⟨hresult, hstate⟩ := Prod.mk.inj h
      obtain ⟨found, hfound, rfl⟩ := ok_of_map hresult
      obtain ⟨op, hop, hr⟩ := ok_of_bind hrequest
      exact .resource hop hr (Prod.ext hfound hstate)
  | list e workspaceId number size all =>
    unfold Command.perform at h
    dsimp only at h
    cases hlisting : e.listing organization workspaceId ⟨number, size⟩ with
    | error err =>
      rw [hlisting] at h
      cases h
    | ok l =>
      rw [hlisting] at h
      cases all with
      | true =>
        obtain ⟨hresult, hstate⟩ := Prod.mk.inj h
        obtain ⟨items, hitems, rfl⟩ := ok_of_map hresult
        obtain ⟨pages, hfetches, rfl⟩ := fetches_of_collect (Prod.ext hitems hstate)
        exact .pages hlisting hfetches
      | false =>
        obtain ⟨hresult, hstate⟩ := Prod.mk.inj h
        obtain ⟨p, hp, rfl⟩ := ok_of_map hresult
        exact .page hlisting (.page (Prod.ext hp hstate))

/-- Results of a list as JSON are one array with the items of every page. -/
theorem Command.Prints.array {link : Link σ} {c : Client} {organization : Option String} {s : σ}
    {e : Entity} {workspaceId : Option String} {number size : Option UInt32} {all : Bool} {text : String}
    (h : Prints link c true organization s (.list e workspaceId number size all) text) :
    ∃ l pages, e.listing organization workspaceId ⟨number, size⟩ = .ok l ∧
      Fetches link c e.kind l s all pages ∧
      text = Json.Value.indented (.array ((pages.flatMap Page.items).map Resource.write)) := by
  cases h with
  | @page _ _ _ _ l p listing fetched =>
    refine ⟨l, [p], listing, fetched, ?_⟩
    rw [List.flatMap_singleton]
    rfl
  | @pages _ _ _ _ l pages listing fetched => exact ⟨l, pages, listing, fetched, rfl⟩

/-- The array is read as it was, as a line of its own, if the numbers in links are. -/
theorem parse?_resources {kind : Kind} {items : List (Resource kind.Attributes)}
    (h : ∀ r ∈ items, ∀ n ∈ r.linkNumbers, n.ReadsBack) :
    Json.parse? (Utf8.encode (Json.Value.indented (.array (items.map Resource.write)) ++ "\n")) =
      some (.array (items.map fun r => r.write.written)) := by
  have hnumbers : ∀ n ∈ Json.Tree.numbers (.array (items.map Resource.write) : Json.Value), n.ReadsBack := by
    intro n hn
    obtain ⟨v, hv, hn⟩ := Json.Tree.mem_numbers_array.1 hn
    obtain ⟨r, hr, rfl⟩ := List.mem_map.1 hv
    exact Resource.readsBack_write (h r hr) n hn
  rw [Json.parse?_indented _ hnumbers, Json.Value.written_array, List.map_map]
  rfl

namespace Ending

variable {e : ApiError} {before after : List String}

@[simp] theorem output_failure : (failure before e after).output = "" := by
  unfold failure
  split <;> rfl

theorem exitCode_failure : (failure before e after).exitCode = if e.isCrash then 101 else 1 := by
  unfold failure
  split <;> rfl

/-- Every complaint begins alike, with a remark in front of the reason as well. -/
theorem complaint_failure (command : Command) (h : e.isCrash = false) (after : List String)
    (hbefore : before = [] ∨ before = command.remarks) :
    ∃ rest, (failure before e after).complaint = "Error: " ++ rest := by
  have hfirst : ∀ (first : String) (lines : List String),
      ∃ rest, String.join ((("Error: " ++ first) :: lines).map (· ++ "\n")) = "Error: " ++ rest := by
    intro first lines
    rw [List.map_cons, String.join_cons, String.append_assoc, String.append_assoc]
    exact ⟨_, rfl⟩
  rw [failure, h, if_neg Bool.false_ne_true]
  have hremarks : command.remarks = [] ∨ command.remarks = variableHint := by
    unfold Command.remarks
    split
    · exact .inr rfl
    · exact .inl rfl
  obtain rfl | rfl : before = [] ∨ before = variableHint := by
    rcases hbefore with rfl | rfl
    · exact .inl rfl
    · exact hremarks
  · exact hfirst e.message after
  · exact hfirst "Variables are read through their workspace" _

/-- What is written about a crash does not begin like a complaint. -/
theorem complaint_crash (h : e.isCrash = true) (rest : String) :
    (failure before e after).complaint ≠ "Error: " ++ rest := by
  rw [failure, if_pos h, crash]
  intro heq
  have hfirst := congrArg (fun text => text.toList.head?) heq
  simp only [String.toList_append] at hfirst
  cases hfirst

end Ending

/-! ## 4. Runs of the program -/

section Runs

variable {env : Config.Environment} {words : List String} {invocation : Invocation}

/-- **What a run sends**: the ping of the client that the environment describes, first of
    all, and nothing but requests that read. -/
theorem program_sends (hwords : Invocation.ofWords (env "TFE_ORGANIZATION") words = .ok invocation)
    (link : Link σ) (s : σ) :
    ∃ trace, program link.traced env words (s, []) =
        ((program link env words s).1, (program link env words s).2, trace) ∧
      (∀ sent ∈ sentRequests trace, sent.method = .get) ∧
      ∀ sent, (sentRequests trace).head? = some sent → ∃ config c,
        Config.ofEnvironment env = .ok config ∧ Client.ofConfig config = .ok c ∧ IsPing c sent := by
  unfold program
  rw [hwords]
  dsimp only
  cases hconfig : Config.ofEnvironment env with
  | error e => exact ⟨[], rfl, nofun, nofun⟩
  | ok config =>
    dsimp only
    cases hclient : Client.ofConfig config with
    | error e => exact ⟨[], rfl, nofun, nofun⟩
    | ok c =>
      dsimp only
      obtain ⟨pinged, hping, hpings⟩ := sendsOnly_ping link c s
      have hlog : link.traced.ping c (s, []) = ((link.ping c s).1, (link.ping c s).2, pinged) := hping []
      rw [hlog]
      rcases hanswer : link.ping c s with ⟨answer, s₁⟩
      cases answer with
      | error e =>
        refine ⟨pinged, rfl, fun sent hsent => (hpings sent hsent).method, fun sent hhead => ?_⟩
        exact ⟨config, c, rfl, hclient, hpings sent (List.mem_of_head? hhead)⟩
      | ok m =>
        dsimp only
        obtain ⟨performed, hperform, hgets⟩ := invocation.command.sendsOnly_perform link c invocation.json
          invocation.organization s₁
        dsimp only at hperform
        rw [hperform]
        refine ⟨pinged ++ performed, ?_, fun sent hsent => ?_, fun sent hhead => ?_⟩
        · rcases invocation.command.perform link c invocation.json invocation.organization s₁ with
            ⟨e | text, s₂⟩ <;> rfl
        · rw [Link.sentRequests_append, List.mem_append] at hsent
          exact hsent.elim (fun h => (hpings sent h).method) (hgets sent)
        · -- a ping that was answered was sent, so it comes first
          have hne : sentRequests pinged ≠ [] := by
            have hsome := sentRequests_ping_ne_nil hanswer
            rwa [hlog] at hsome
          rw [Link.sentRequests_append, List.head?_append_of_ne_nil _ hne] at hhead
          exact ⟨config, c, rfl, hclient, hpings sent (List.mem_of_head? hhead)⟩

/-- A run ends with a ping that fails. -/
theorem program_of_ping (hwords : Invocation.ofWords (env "TFE_ORGANIZATION") words = .ok invocation)
    {config : Config} (hconfig : Config.ofEnvironment env = .ok config) {c : Client}
    (hclient : Client.ofConfig config = .ok c) {link : Link σ} {s s' : σ} {e : ApiError}
    (hping : link.ping c s = (.error e, s')) :
    program link env words s = (.failure [] e [], s') := by
  unfold program
  rw [hwords]
  dsimp only
  rw [hconfig]
  dsimp only
  rw [hclient]
  dsimp only
  rw [hping]

/-- The answer to the ping of the client that an environment describes announces a limit
    that is too slow. -/
def IsToldTooSlow (link : Link σ) (env : Config.Environment) (s : σ) : Prop :=
  ∃ config c r response s₁, Config.ofEnvironment env = .ok config ∧ Client.ofConfig config = .ok c ∧
    c.request .api .get "ping" = .ok r ∧ link.send c r s = (.ok response, s₁) ∧
    Link.AnnouncesTooSlow response

theorem crashFree_ofEnvironment (env : Config.Environment) : CrashFree (Config.ofEnvironment env) := by
  unfold Config.ofEnvironment
  split
  · exact .error rfl
  · exact .ok _

theorem crashFree_ofConfig (config : Config) : CrashFree (Client.ofConfig config) := by
  unfold Client.ofConfig
  split
  · exact .error rfl
  · exact .ok _

/-- The program keeps to the standard waits, which all exist. -/
theorem waits_of_environment {config : Config} {c : Client} (hconfig : Config.ofEnvironment env = .ok config)
    (hclient : Client.ofConfig config = .ok c) : c.retry.Waits := by
  have hstandard : config.retry = .standard := by
    unfold Config.ofEnvironment at hconfig
    split at hconfig <;> cases hconfig
    rfl
  rw [Client.retry_ofConfig hclient, hstandard]
  exact RetryPolicy.standard_waits

/-- **How a run ends**: with all that its command prints, or with a complaint alone, or with
    a crash, if the answer to the ping is to blame for it. -/
theorem program_ends (hwords : Invocation.ofWords (env "TFE_ORGANIZATION") words = .ok invocation)
    {link : Link σ} (hjitter : link.KeepsWindow) (s : σ) :
    (¬IsToldTooSlow link env s ∧ ∃ config c m s₁ text,
        Config.ofEnvironment env = .ok config ∧ Client.ofConfig config = .ok c ∧
        link.ping c s = (.ok m, s₁) ∧
        invocation.command.Prints link c invocation.json invocation.organization s₁ text ∧
        (program link env words s).1 = .success text) ∨
      ∃ before e after, (program link env words s).1 = .failure before e after ∧
        (before = [] ∨ before = invocation.command.remarks) ∧
        (e.isCrash = true ↔ IsToldTooSlow link env s) := by
  unfold program
  rw [hwords]
  dsimp only
  have hharmless : ∀ {e : ApiError}, e.isCrash = false → ¬IsToldTooSlow link env s →
      (e.isCrash = true ↔ IsToldTooSlow link env s) := fun h hno => by simp [h, hno]
  cases hconfig : Config.ofEnvironment env with
  | error e =>
    refine .inr ⟨_, _, _, rfl, .inl rfl, hharmless (crashFree_ofEnvironment env e hconfig) ?_⟩
    rintro ⟨config, _, _, _, _, hok, -⟩
    rw [hconfig] at hok
    cases hok
  | ok config =>
    dsimp only
    cases hclient : Client.ofConfig config with
    | error e =>
      refine .inr ⟨_, _, _, rfl, .inl rfl, hharmless (crashFree_ofConfig config e hclient) ?_⟩
      rintro ⟨config', c, _, _, _, hsame, hok, -⟩
      rw [hconfig, Except.ok.injEq] at hsame
      rw [← hsame, hclient] at hok
      cases hok
    | ok c =>
      dsimp only
      have hwaits := waits_of_environment hconfig hclient
      have htold : IsToldTooSlow link env s ↔ ∃ e s', link.ping c s = (.error e, s') ∧ e.isCrash = true := by
        rw [Link.ping_crashes_iff hjitter hwaits]
        constructor
        · rintro ⟨config', c', r, response, s', hsame, hok, hping⟩
          rw [hconfig, Except.ok.injEq] at hsame
          rw [← hsame, hclient, Except.ok.injEq] at hok
          exact ⟨r, response, s', hok ▸ hping⟩
        · rintro ⟨r, response, s', hping⟩
          exact ⟨config, c, r, response, s', hconfig, hclient, hping⟩
      rcases hanswer : link.ping c s with ⟨e | m, s₁⟩
      · refine .inr ⟨_, _, _, rfl, .inl rfl, ?_⟩
        rw [htold, hanswer]
        simp
      · have hno : ¬IsToldTooSlow link env s := by
          rw [htold, hanswer]
          simp
        dsimp only
        rcases hperform : invocation.command.perform link c invocation.json invocation.organization s₁ with
          ⟨e | text, s₂⟩
        · refine .inr ⟨_, _, _, rfl, .inr rfl, hharmless ?_ hno⟩
          exact invocation.command.crashFree_perform hjitter hwaits _ _ _ e (by rw [hperform])
        · exact .inl ⟨hno, config, c, m, s₁, text, rfl, hclient, hanswer,
            Command.prints_of_perform hperform, rfl⟩

/-- **The program only reads, and prints all or nothing**, whoever answers and whatever goes
    wrong.  Every request is a `GET`, and the first one is the ping.  A run that succeeds has
    printed what its command prints, which for a list as JSON is one array with the items of
    every page that was fetched, in order, and is read as that array if the numbers in links
    are read as they were.  A run that fails has printed nothing.  It complains exactly if
    it was not the limit in the answer to the ping that ended it. -/
theorem program_reads_all_or_nothing
    (hwords : Invocation.ofWords (env "TFE_ORGANIZATION") words = .ok invocation)
    {link : Link σ} (hjitter : link.KeepsWindow) (s : σ) :
    ∃ ending s' trace, program link env words s = (ending, s') ∧
      program link.traced env words (s, []) = (ending, s', trace) ∧
      (∀ sent ∈ sentRequests trace, sent.method = .get) ∧
      (∀ sent, (sentRequests trace).head? = some sent → ∃ config c,
        Config.ofEnvironment env = .ok config ∧ Client.ofConfig config = .ok c ∧ IsPing c sent) ∧
      (ending.exitCode = 0 → ending.complaint = "" ∧ ∃ config c m s₁ text,
        Config.ofEnvironment env = .ok config ∧ Client.ofConfig config = .ok c ∧
        link.ping c s = (.ok m, s₁) ∧
        invocation.command.Prints link c invocation.json invocation.organization s₁ text ∧
        ending.output = text ++ "\n" ∧
        ∀ e workspaceId number size all, invocation.json = true →
          invocation.command = .list e workspaceId number size all →
          ∃ l pages, e.listing invocation.organization workspaceId ⟨number, size⟩ = .ok l ∧
            Fetches link c e.kind l s₁ all pages ∧
            text = Json.Value.indented (.array ((pages.flatMap Page.items).map Resource.write)) ∧
            ((∀ r ∈ pages.flatMap Page.items, ∀ n ∈ r.linkNumbers, n.ReadsBack) →
              Json.parse? (Utf8.encode ending.output) =
                some (.array ((pages.flatMap Page.items).map fun r => r.write.written)))) ∧
      (ending.exitCode ≠ 0 → ending.output = "" ∧
        ((∃ rest, ending.complaint = "Error: " ++ rest) ↔ ¬IsToldTooSlow link env s)) ∧
      (ending.exitCode = 101 ↔ IsToldTooSlow link env s) := by
  obtain ⟨trace, htraced, hgets, hfirst⟩ := program_sends hwords link s
  have hends := program_ends hwords hjitter s
  rcases hrun : program link env words s with ⟨ending, s'⟩
  rw [hrun] at htraced hends
  refine ⟨ending, s', trace, rfl, htraced, hgets, hfirst, ?_⟩
  rcases hends with ⟨hno, config, c, m, s₁, text, hconfig, hclient, hping, hprints, rfl⟩ |
    ⟨before, e, after, rfl, hbefore, hcrash⟩
  · refine ⟨fun _ => ⟨rfl, config, c, m, s₁, text, hconfig, hclient, hping, hprints, rfl, ?_⟩,
      fun hfailed => absurd rfl hfailed, iff_of_false (show ¬0 = 101 by decide) hno⟩
    intro e workspaceId number size all hjson hcommand
    rw [hjson, hcommand] at hprints
    obtain ⟨l, pages, hlisting, hfetches, rfl⟩ := hprints.array
    exact ⟨l, pages, hlisting, hfetches, rfl, parse?_resources⟩
  · rw [← hcrash, Ending.exitCode_failure, Ending.output_failure]
    cases hcause : e.isCrash with
    | true => simp [Ending.complaint_crash hcause]
    | false => simp [Ending.complaint_failure invocation.command hcause after hbefore]

end Runs

/-! ### An example -/

/-- An environment with nothing but a token. -/
def tokenOnly (token : String) : Config.Environment := fun name => if name = "TFE_TOKEN" then some token else none

/-- The words that ask for all workspaces of `acme` as JSON. -/
def listOfAcme : List String := ["list", "workspaces", "--org", "acme", "--json", "--all"]

theorem ofWords_listOfAcme (token : String) :
    Invocation.ofWords (tokenOnly token "TFE_ORGANIZATION") listOfAcme =
      .ok ⟨true, some "acme", .list .workspace none none none true⟩ := rfl

/-- A run against the example service goes as the walk through the workspaces goes. -/
theorem program_listOfAcme {secret token : String} (hsendable : Http.isFieldValue token = true)
    (hping : (Client.ofConfig { Config.standard with token }).toOption.all Simulator.canPing = true)
    {now : Instant} :
    ∃ c w, Client.ofConfig { Config.standard with token } = .ok c ∧ c.token = token ∧
      c.apiUrl.path = .segments ["api", "v2", ""] ∧ w.peer = Listing.secretStore secret ∧
      (Simulator.link now true none).cancelled w = false ∧
      ∀ result w', Listing.collect (Simulator.link now true none) c .workspace (.workspaces "acme" {}) w =
          (result, w') →
        (program (Simulator.link now true none) (tokenOnly token) listOfAcme
            (World.start (Listing.secretStore secret))).1 =
          match result with
          | .error e => .failure [] e []
          | .ok all => .success (showAll true .workspace all) := by
  obtain ⟨c, hclient, htoken, haddress⟩ := Listing.exists_client_of_token token
  rw [← htoken] at hsendable
  have hstart : (Simulator.link now true none).cancelled
      (World.start (Listing.secretStore secret)) = false := rfl
  obtain ⟨w, hpong, hw, hcancelled⟩ := Simulator.ping_answered (s := Listing.secretStore secret)
    haddress hsendable (Client.holds_of_config hclient hping) rfl hstart
  refine ⟨c, w, hclient, htoken, haddress, hw, hcancelled, fun result w' hcollect => ?_⟩
  have hconfig : Config.ofEnvironment (tokenOnly token) = .ok { Config.standard with token } := rfl
  obtain ⟨m, hm⟩ : ∃ m, Link.Metadata.ofResponse
      (arrivedResponse (Simulator.pong (Listing.secretStore secret))) = .ok m := by
    have hfine : (Link.Metadata.ofResponse
        (arrivedResponse (Simulator.pong Simulator.exampleStore))).toOption.isSome = true := by
      decide +kernel
    change ∃ m, Link.Metadata.ofResponse (arrivedResponse (Simulator.pong Simulator.exampleStore)) = .ok m
    cases hresult : Link.Metadata.ofResponse (arrivedResponse (Simulator.pong Simulator.exampleStore)) with
    | ok m => exact ⟨m, rfl⟩
    | error e =>
      rw [hresult] at hfine
      cases hfine
  have hperform : (Command.list .workspace none none none true).perform (Simulator.link now true none) c true
      (some "acme") w = (result.map (showAll true .workspace), w') :=
    congrArg (fun found => (found.1.map (showAll true .workspace), found.2)) hcollect
  unfold program
  rw [ofWords_listOfAcme, hconfig]
  dsimp only
  rw [hclient]
  dsimp only
  rw [hpong, hm]
  dsimp only
  rw [hperform]
  cases result <;> rfl

/-- Who holds the secret of the example service gets all workspaces of `acme`, and who does
    not gets a complaint. -/
theorem program_lists_acme :
    let link := Simulator.link Listing.newYear true none
    let w := World.start (Listing.secretStore "secret")
    link.KeepsWindow ∧
    (∃ ending s' trace c s₁ l pages,
      program link.traced (tokenOnly "secret") listOfAcme (w, []) = (ending, s', trace) ∧
      (∀ sent ∈ sentRequests trace, sent.method = .get) ∧ ending.exitCode = 0 ∧
      Fetches link c .workspace l s₁ true pages ∧
      ending.output =
        Json.Value.indented (.array ((pages.flatMap Page.items).map Resource.write)) ++ "\n") ∧
    ∃ ending s' rest, program link (tokenOnly "guess") listOfAcme w = (ending, s') ∧ ending.exitCode = 1 ∧
      ending.output = "" ∧ ending.complaint = "Error: " ++ rest := by
  intro link w
  have hjitter : link.KeepsWindow := fun _ _ => Nat.zero_le _
  refine ⟨hjitter, ?_, ?_⟩
  · obtain ⟨c, s₁, hclient, htoken, haddress, hs, hcancelled, hrun⟩ :=
      @program_listOfAcme "secret" "secret" (by decide) (by decide +kernel) Listing.newYear
    have hfew : (Simulator.matching (Listing.secretStore "secret") "acme" none).length ≤
        Listing.pageSize {} := by
      rw [(Simulator.isListed_matching _ _ _).perm.length_eq]
      decide +kernel
    have hlists := @Listing.lists_workspaces _ _ _ Listing.newYear true none
      (Listing.admits_secretStore htoken haddress) (Listing.tellable_secretStore "secret")
      (Listing.hosts_secretStore "secret") {} (Listing.canWalk_of_le hfew
        (Client.holds_of_config hclient (P := (Operation.isDeliverable · _)) (by decide +kernel)))
    obtain ⟨w', hcollect, -⟩ := Walk.collectAll_lists hlists (Nat.le_max_left _ _) ⟨hs, hcancelled⟩
    obtain ⟨ending, s', trace, hprogram, htraced, hgets, -, hsuccess, -⟩ :=
      program_reads_all_or_nothing (ofWords_listOfAcme "secret") hjitter w
    have hending : ending = .success _ := (congrArg Prod.fst hprogram).symm.trans (hrun _ _ hcollect)
    have hzero : ending.exitCode = 0 := by rw [hending]; rfl
    obtain ⟨-, _, c, _, s₁, text, -, -, -, -, houtput, harray⟩ := hsuccess hzero
    obtain ⟨l, pages, -, hfetches, htext, -⟩ := harray _ _ _ _ _ rfl rfl
    exact ⟨ending, s', trace, c, s₁, l, pages, htraced, hgets, hzero, hfetches,
      houtput.trans (congrArg (· ++ "\n") htext)⟩
  · obtain ⟨c, s₁, hclient, htoken, haddress, hs, hcancelled, hrun⟩ :=
      @program_listOfAcme "secret" "guess" (by decide) (by decide +kernel) Listing.newYear
    obtain ⟨w', hcollect, -⟩ := Listing.collect_refused haddress (by rw [htoken]; decide)
      (by rw [htoken]; decide) (Listing.hosts_secretStore "secret") {}
      (Client.holds_of_config hclient (P := (Operation.isDeliverable · _)) (by decide +kernel))
      hs hcancelled
    obtain ⟨ending, s', trace, hprogram, -, -, -, -, hfailure, hslow⟩ :=
      program_reads_all_or_nothing (ofWords_listOfAcme "guess") hjitter w
    have hending : ending = .failure [] .unauthorized [] :=
      (congrArg Prod.fst hprogram).symm.trans (hrun _ _ hcollect)
    have hone : ending.exitCode = 1 := by rw [hending]; rfl
    obtain ⟨houtput, hcomplains⟩ := hfailure (by rw [hone]; decide)
    obtain ⟨rest, hcomplaint⟩ := hcomplains.2 (by rw [← hslow, hone]; decide)
    exact ⟨ending, s', rest, hprogram, hone, houtput, hcomplaint⟩

/-- An answer to a ping that announces one request in three thousand years. -/
def slowPong : Http.Response := ⟨204, [("x-ratelimit-limit", "0.00000000001")], some []⟩

theorem ofResponse_slowPong :
    Link.Metadata.ofResponse (arrivedResponse slowPong) = .error .limitTooSlow := by
  have hnone : (Link.Metadata.ofResponse (arrivedResponse slowPong)).toOption.isNone = true := by
    decide +kernel
  cases hresult : Link.Metadata.ofResponse (arrivedResponse slowPong) with
  | ok m =>
    rw [hresult] at hnone
    cases hnone
  | error e => rw [(Link.announces_of_error hresult).1]

/-- **A limit can end the program**, and then it does not complain. -/
theorem program_crashes_on_limit :
    ∃ ending s', program (Rehearsal.link ⟨Peer.scripted, true, none⟩) (tokenOnly "secret") listOfAcme
        (World.start [.response slowPong]) = (ending, s') ∧
      ending.exitCode = 101 ∧ ending.output = "" ∧ ∀ rest, ending.complaint ≠ "Error: " ++ rest := by
  obtain ⟨c, hclient, htoken, haddress⟩ := Listing.exists_client_of_token "secret"
  obtain ⟨r, request, hrequest, hwire, hdeliverable, -⟩ := Simulator.exists_ping haddress
    (by rw [htoken]; decide) (Client.holds_of_config hclient (by decide +kernel))
  let rehearsal : Rehearsal (List PeerReply) := ⟨Peer.scripted, true, none⟩
  have hstart : rehearsal.link.cancelled (World.start [.response slowPong]) = false := rfl
  have hanswer : rehearsal.peer (arrivedRequest request) (World.start [.response slowPong]).peer =
      (.response slowPong, []) := rfl
  obtain ⟨w', hping, -⟩ :=
    Simulator.ping_of_answer hrequest hwire hdeliverable hstart hanswer rfl
  rw [ofResponse_slowPong] at hping
  have hconfig : Config.ofEnvironment (tokenOnly "secret") =
      .ok { Config.standard with token := "secret" } := rfl
  refine ⟨_, w', program_of_ping (ofWords_listOfAcme "secret") hconfig hclient hping, rfl, rfl, ?_⟩
  exact Ending.complaint_crash rfl

end CommandLine
end TerraformCloud
