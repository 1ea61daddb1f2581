/-
  TerraformCloud/Proofs/Sending/Anonymous.lean
  ============================================
  **What a request without the caller's secret still says about the caller.**

  An anonymous request goes to hosts that must not learn the secret: the archives of
  logs.  Its headers are those of the configuration, overlaid with what the request
  decides for itself, and the secret is not among them.  But the configuration may set
  any header, and one named `Authorization` is sent like the others; so is the user of a
  URL.  `Tells` says exactly what is sent.  It holds of every anonymous request
  (`ApiRequest.tells`), so of every attempt, and of every poll for a log (`keeps_tells`).
-/
import TerraformCloud.Proofs.Log.Polling
import TerraformCloud.Proofs.Sending.Trace
import TerraformCloud.Rehearsal

namespace TerraformCloud

/-! ## 1. What a configuration says about all requests -/

/-- Adds headers to every request, one after the other. -/
def Config.withHeaders (c : Config) (fields : List (String × String)) : Except ApiError Config :=
  fields.foldlM (fun c f => c.withHeader f.1 f.2) c

/-- The value of the last of the fields with a name. -/
def lastField (fields : List (String × String)) (name : String) : Option String :=
  (fields.reverse.find? (fun f => Http.fieldName? f.1 = some name)).map (·.2)

theorem Config.withHeader_spec {c c' : Config} {name value : String}
    (h : c.withHeader name value = .ok c') :
    ∃ field, Http.fieldName? name = some field ∧
      c' = { c with headers := c.headers.insert field value } := by
  unfold Config.withHeader Http.setHeader at h
  cases hname : Http.fieldName? name with
  | none => simp only [hname] at h; cases h
  | some field =>
    by_cases hvalue : Http.isFieldValue value = true
    · simp only [hname, if_pos hvalue] at h
      cases h
      exact ⟨field, rfl, rfl⟩
    · simp only [hname, if_neg hvalue] at h
      cases h

/-- **The last header with a name counts**, however its letters are written. -/
theorem Config.withHeaders_spec {c c' : Config} {fields : List (String × String)}
    (h : c.withHeaders fields = .ok c') :
    c' = { c with headers := c'.headers } ∧
      ∀ name, c'.headers.find? name = (lastField fields name).or (c.headers.find? name) := by
  induction fields generalizing c with
  | nil =>
    cases h
    exact ⟨rfl, fun name => rfl⟩
  | cons f fields ih =>
    rw [withHeaders, List.foldlM_cons] at h
    cases hfirst : c.withHeader f.1 f.2 with
    | error e => rw [hfirst] at h; cases h
    | ok c₁ =>
      rw [hfirst] at h
      obtain ⟨hc', hfind⟩ := ih (c := c₁) h
      obtain ⟨field, hname, rfl⟩ := Config.withHeader_spec hfirst
      refine ⟨hc', fun name => ?_⟩
      rw [hfind, Keyed.find?_insert, lastField, lastField, List.reverse_cons, List.find?_append]
      cases fields.reverse.find? (fun f => Http.fieldName? f.1 = some name) with
      | some last => rfl
      | none =>
        by_cases hsame : name = field
        · simp [hname, hsame]
        · simp [hname, hsame, Ne.symm hsame]

theorem Config.exists_withHeaders {fields : List (String × String)}
    (h : ∀ f ∈ fields, (Http.fieldName? f.1).isSome = true ∧ Http.isFieldValue f.2 = true)
    (c : Config) : ∃ c', c.withHeaders fields = .ok c' := by
  induction fields generalizing c with
  | nil => exact ⟨c, rfl⟩
  | cons f fields ih =>
    obtain ⟨hname, hvalue⟩ := h f List.mem_cons_self
    obtain ⟨field, hfield⟩ := Option.isSome_iff_exists.1 hname
    obtain ⟨c', hc'⟩ := ih (fun f hf => h f (List.mem_cons_of_mem _ hf))
      { c with headers := c.headers.insert field f.2 }
    refine ⟨c', ?_⟩
    rw [withHeaders, List.foldlM_cons, withHeader, Http.setHeader, hfield]
    simp only [if_pos hvalue]
    exact hc'

theorem Client.headers_ofConfig {config : Config} {c : Client} (h : Client.ofConfig config = .ok c) :
    c.headers = config.headers := by
  unfold Client.ofConfig at h
  split at h
  · cases h
  · cases h
    rfl

/-! ## 2. What an anonymous request carries -/

/-- The header that the user of a URL travels as. -/
def Url.told? (url : Url) : Option String :=
  url.credentials?.map fun user => Http.basicValue user.1 user.2

/-- The names of the headers that a request decides for itself. -/
def ApiRequest.ownNames (r : ApiRequest) : List String :=
  "user-agent" :: "accept" :: (r.sentBody.map fun _ => "content-type").toList

/-- What a request tells of the headers of its configuration and of the user of its URL,
    when nothing but the headers `own` is its own. -/
structure Tells (fields : List (String × String)) (url : Url) (own : List String)
    (sent : Http.Request) : Prop where
  caller : sent.headers.find? "authorization" = (lastField fields "authorization").or url.told?
  others : ∀ name, name ≠ "authorization" → name ∉ own →
    sent.headers.find? name = lastField fields name

theorem lastField_eq_none {fields : List (String × String)} {name : String} :
    lastField fields name = none ↔ ∀ f ∈ fields, Http.fieldName? f.1 ≠ some name := by
  simp [lastField]

/-- **Nobody is named exactly if neither the configuration nor the URL names somebody.** -/
theorem Tells.silent_iff {fields : List (String × String)} {url : Url} {own : List String}
    {sent : Http.Request} (h : Tells fields url own sent) :
    sent.headers.find? "authorization" = none ↔
      (∀ f ∈ fields, Http.fieldName? f.1 ≠ some "authorization") ∧ url.credentials? = none := by
  rw [h.caller, Option.or_eq_none_iff, lastField_eq_none, Url.told?, Option.map_eq_none_iff]

theorem ApiRequest.url_authority (r : ApiRequest) : r.url.authority = r.address.authority := by
  unfold ApiRequest.url
  dsimp only
  split <;> rfl

theorem Url.told?_congr {url url' : Url} (h : url.authority = url'.authority) :
    url.told? = url'.told? := by
  rw [told?, told?, credentials?, credentials?, h]

theorem Http.Request.of_headers (method : Http.Method) (url : Url) (headers : Http.Headers)
    (body : Option Bytes) (name : String) :
    (Http.Request.of method url headers body).headers.find? name =
      if name = "authorization" then (headers.find? name).or url.told? else headers.find? name := by
  unfold Http.Request.of Url.told?
  cases url.credentials? with
  | none => simp
  | some user =>
    dsimp only
    rw [Keyed.find?_alter]
    by_cases hname : name = "authorization"
    · -- a header that is there stays: the user of a URL only fills the gap
      rw [if_pos hname, if_pos hname, hname]
      cases headers.find? "authorization" <;> rfl
    · rw [if_neg hname, if_neg hname]

theorem ApiRequest.headers_anonymous (c : Client) {r : ApiRequest} (h : r.authenticated = false) :
    ∃ headers, r.headers c = .ok headers ∧
      ∀ name, name ∉ r.ownNames → headers.find? name = c.headers.find? name := by
  unfold ApiRequest.headers
  rw [h]
  simp only [Bool.false_and, Bool.false_eq_true, if_false]
  refine ⟨_, rfl, fun name hown => ?_⟩
  rw [ownNames, List.mem_cons, List.mem_cons, not_or, not_or] at hown
  obtain ⟨hagent, haccept, hbody⟩ := hown
  cases hsent : r.sentBody with
  | none => simp [hagent, haccept]
  | some body =>
    rw [hsent] at hbody
    have htype : name ≠ "content-type" :=
      fun heq => hbody (by rw [heq]; exact List.mem_singleton_self _)
    simp [hagent, haccept, htype]

/-- **An anonymous request can be sent, whatever the secret is**, and this is what it
    tells. -/
theorem ApiRequest.tells {fields : List (String × String)} {c : Client}
    (hheaders : ∀ name, c.headers.find? name = lastField fields name) {r : ApiRequest}
    (h : r.authenticated = false) :
    ∃ request, r.wire c = .ok request ∧ Tells fields r.address r.ownNames request := by
  obtain ⟨headers, hok, hfind⟩ := r.headers_anonymous c h
  refine ⟨_, by rw [wire, hok]; rfl, ?_, fun name hname hown => ?_⟩
  · have hown : "authorization" ∉ r.ownNames := by
      rw [ownNames]
      cases r.sentBody <;> simp
    have htold : r.url.withoutFragment.told? = r.address.told? := Url.told?_congr r.url_authority
    rw [Http.Request.of_headers, if_pos rfl, hfind _ hown, hheaders, htold]
  · rw [Http.Request.of_headers, if_neg hname, hfind _ hown, hheaders]

/-! ## 3. Every attempt and every poll

All attempts of a call send one request, so one request is looked at.  A reading is many
calls, and none of them may break what holds of the requests before. -/

open Link (Action sentRequests)

section Polls

variable {σ : Type}

/-- No exchange with a log sends anything but requests that tell so much. -/
theorem keeps_tells {fields : List (String × String)} {c : Client}
    (hheaders : ∀ name, c.headers.find? name = lastField fields name) (link : Link σ) (url : Url)
    (done : σ → Result σ Bool) :
    (LogReader.source link.traced c url (aside done)).Keeps fun _ s =>
      ∀ sent ∈ sentRequests s.2, Tells fields url (Client.outside url).ownNames sent where
  poll := by
    rintro offset ⟨s, log⟩ hlog sent hsent
    -- how the answer is read has no part in what was sent
    obtain ⟨more, hpoll, hmore⟩ :=
      (link.sendsOnly_fetch c (Client.outside (LogReader.pieceUrl url offset)) bodyOf s).sentRequests_eq log
    change sent ∈ sentRequests (link.traced.fetch c _ bodyOf (s, log)).2.2 at hsent
    rw [hpoll, List.mem_append] at hsent
    rcases hsent with hsent | hsent
    · exact hlog sent hsent
    · obtain ⟨request, hrequest, htells⟩ :=
        ApiRequest.tells hheaders (r := Client.outside (LogReader.pieceUrl url offset)) rfl
      obtain rfl := Except.ok.inj ((hmore sent hsent).symm.trans hrequest)
      exact ⟨htells.caller, htells.others⟩
  done _ _ hlog := hlog
  wait := by
    rintro offset delay ⟨s, log⟩ hlog
    change ∀ sent ∈ sentRequests (link.traced.wait delay (s, log)).2.2, _
    rw [link.sentRequests_wait]
    exact hlog

end Polls

/-- **What anonymous requests tell**, at every attempt, and so does every poll for a log:
    the headers of the configuration that the request does not decide for itself, among
    them the one that names a caller.  Nobody is named exactly if the configuration has no
    such header and the URL has no user. -/
theorem anonymous_tells {base config : Config} {fields : List (String × String)} {c : Client}
    (bare : base.headers = .empty) (hconfig : base.withHeaders fields = .ok config)
    (hclient : Client.ofConfig config = .ok c) :
    (∀ r : ApiRequest, r.authenticated = false → (∃ request, r.wire c = .ok request) ∧
      ∀ {σ : Type} (link : Link σ) (s : σ),
        ∀ sent ∈ sentRequests (link.traced.send c r (s, [])).2.2,
          Tells fields r.address r.ownNames sent) ∧
    (∀ {σ : Type} (link : Link σ) (url : Url) (done : σ → Result σ Bool) (fuel calls : Nat)
      (reader : LogReader) (s : σ),
      let source := LogReader.source link.traced c url (aside done)
      let own := (Client.outside url).ownNames
      (∀ sent ∈ sentRequests (LogReader.readAll source fuel calls reader (s, [])).2.2.2,
        Tells fields url own sent) ∧
      ∀ sent ∈ sentRequests (LogReader.readSome source fuel calls reader (s, [])).2.2.2,
        Tells fields url own sent) ∧
    ∀ url own sent, Tells fields url own sent →
      (sent.headers.find? "authorization" = none ↔
        (∀ f ∈ fields, Http.fieldName? f.1 ≠ some "authorization") ∧ url.credentials? = none) := by
  have hheaders : ∀ name, c.headers.find? name = lastField fields name := by
    intro name
    rw [Client.headers_ofConfig hclient, (Config.withHeaders_spec hconfig).2, bare,
      Keyed.find?_empty, Option.or_none]
  refine ⟨fun r hr => ?_, ?_, fun url own sent htells => htells.silent_iff⟩
  · obtain ⟨request, hwire, htells⟩ := ApiRequest.tells hheaders hr
    refine ⟨⟨request, hwire⟩, fun link s sent hsent => ?_⟩
    rcases Link.mem_sentRequests_send hsent with hsent | hsent
    · cases hsent
    · obtain rfl := Except.ok.inj (hwire.symm.trans hsent)
      exact htells
  · intro σ link url done fuel calls reader s source own
    have hkeeps := keeps_tells hheaders link url done
    have hnone : ∀ sent ∈ sentRequests (s, ([] : List (Action σ))).2, Tells fields url own sent := by
      intro sent hsent
      cases hsent
    exact ⟨hkeeps.readAll fuel calls reader hnone, hkeeps.readSome fuel calls reader hnone⟩

theorem exists_client (token : String) (fields : List (String × String))
    (h : ∀ f ∈ fields, (Http.fieldName? f.1).isSome = true ∧ Http.isFieldValue f.2 = true) :
    ∃ config c, Config.withHeaders { Config.standard with token } fields = .ok config ∧
      Client.ofConfig config = .ok c := by
  obtain ⟨config, hconfig⟩ := Config.exists_withHeaders h { Config.standard with token }
  have haddress : config.address = Config.standard.address := by
    rw [(Config.withHeaders_spec hconfig).1]
  have hparsed : (Url.parse Config.standard.address).toOption.isSome = true := by decide +kernel
  have hclient : ∃ c, Client.ofConfig config = .ok c := by
    rw [Client.ofConfig, haddress]
    cases hparse : Url.parse Config.standard.address with
    | error e =>
      rw [hparse] at hparsed
      cases hparsed
    | ok address => exact ⟨_, rfl⟩
  obtain ⟨c, hc⟩ := hclient
  exact ⟨config, c, hconfig, hc⟩

/-- A header that was set twice, and a secret that could not even be sent: nobody is named. -/
theorem anonymous_without_caller :
    let url : Url := ⟨"https", some ⟨"", "", .name "archive.test", none⟩, .segments ["log"], none, none⟩
    let link := Rehearsal.link ⟨Peer.scripted, false, none⟩
    ∃ config c request, Config.withHeaders { Config.standard with token := "\n" }
        [("X-Trace", "one"), ("x-trace", "two")] = .ok config ∧
      Client.ofConfig config = .ok c ∧ (Client.outside url).wire c = .ok request ∧
      request ∈ sentRequests (link.traced.send c (Client.outside url) (World.start [], [])).2.2 ∧
      request.headers.find? "authorization" = none ∧
      request.headers.find? "x-trace" = some "two" := by
  intro url link
  obtain ⟨config, c, hconfig, hclient⟩ :=
    exists_client "\n" [("X-Trace", "one"), ("x-trace", "two")] (by decide +kernel)
  obtain ⟨hrequests, -, hsilent⟩ := anonymous_tells rfl hconfig hclient
  obtain ⟨⟨request, hwire⟩, htells⟩ := hrequests (Client.outside url) rfl
  obtain ⟨trace, result, s', hsends, -, hlog⟩ := Link.send_isRun link hwire (World.start [])
  have hsent := hsends.mem_sentRequests rfl rfl
  have hrecorded : request ∈
      sentRequests (link.traced.send c (Client.outside url) (World.start [], [])).2.2 := by
    simp only [hlog, List.nil_append]
    exact hsent
  have htold := htells link (World.start []) request hrecorded
  refine ⟨config, c, request, hconfig, hclient, hwire, hrecorded,
    (hsilent _ _ _ htold).2 ⟨by decide +kernel, by decide +kernel⟩, ?_⟩
  rw [htold.others "x-trace" (by decide) (by decide +kernel)]
  decide +kernel

/-- **A default header that names a caller is sent to everybody.** -/
theorem anonymous_leak :
    let url : Url := ⟨"https", some ⟨"", "", .name "archive.test", none⟩, .segments ["log"], none, none⟩
    ∃ config c request, Config.withHeaders { Config.standard with token := "secret" }
        [("Authorization", "Bearer secret")] = .ok config ∧
      Client.ofConfig config = .ok c ∧ (Client.outside url).wire c = .ok request ∧
      request.headers.find? "authorization" = some "Bearer secret" := by
  intro url
  obtain ⟨config, c, hconfig, hclient⟩ :=
    exists_client "secret" [("Authorization", "Bearer secret")] (by decide +kernel)
  have hheaders : ∀ name,
      c.headers.find? name = lastField [("Authorization", "Bearer secret")] name := by
    intro name
    rw [Client.headers_ofConfig hclient, (Config.withHeaders_spec hconfig).2]
    exact Option.or_none
  obtain ⟨request, hwire, htells⟩ := ApiRequest.tells hheaders (r := Client.outside url) rfl
  refine ⟨config, c, request, hconfig, hclient, hwire, ?_⟩
  have hfield : lastField [("Authorization", "Bearer secret")] "authorization" =
      some "Bearer secret" := by decide +kernel
  rw [htells.caller, hfield, Option.some_or]

end TerraformCloud
