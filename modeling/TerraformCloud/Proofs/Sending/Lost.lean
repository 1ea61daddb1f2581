/-
  TerraformCloud/Proofs/Sending/Lost.lean
  =======================================
  **Requests that cannot be delivered.**

  A request whose URL is too long is lost at every attempt.  It may be tried again and
  again, but what comes of it in the end is an error, and nobody at the other end hears of
  it (`Link.Loses.send`).

  How long a URL is, is up to the caller.  An identifier is a part of the path and a text to
  search for is a value in the query, and neither is longer than the URL around it
  (`Url.length_segment_le`, `Query.length_value_le`).
-/
import TerraformCloud.Proofs.Query.Canonical
import TerraformCloud.Proofs.Service.Addresses
import TerraformCloud.Proofs.Text.Characters

namespace TerraformCloud

/-! ## 1. Calls over a link that loses the request -/

namespace Link

variable {σ : Type}

/-- A link that loses a request at every attempt.  What is done about it keeps `P`. -/
structure Loses (link : Link σ) (request : Http.Request) (P : σ → Prop) : Prop where
  lost : ∀ s, P s → (link.attempt request s).1 = .lost
  slot : ∀ s, P s → P (link.slot s).2
  attempt : ∀ s, P s → P (link.attempt request s).2
  jitter : ∀ window s, P s → P (link.jitter window s).2
  observe : ∀ event s, P s → P (link.observe event s)
  wait : ∀ delay s, P s → P (link.wait delay s).2

namespace Loses

variable {link : Link σ} {policy : RetryPolicy} {request : Http.Request} {P : σ → Prop}
  (h : Loses link request P)

include h

theorem attempted {s s₁ s₂ : σ} {reply : Reply} (hattempted : Attempted link request s reply s₁ s₂)
    (hs : P s) : reply = .lost ∧ P s₂ := by
  have hs₁ := h.slot s hs
  rw [hattempted.slot] at hs₁
  have hlost := h.lost s₁ hs₁
  have hs₂ := h.attempt s₁ hs₁
  rw [hattempted.attempt] at hlost hs₂
  exact ⟨hlost, hs₂⟩

theorem retryable {s s₁ s₂ s₃ : σ} {answer : Option Http.Response} {jitter : Duration}
    (again : Retryable link policy request s answer jitter s₁ s₂ s₃) (hs : P s) : P s₃ := by
  have hs₃ := h.jitter policy.window s₂ (h.attempted again.attempted hs).2
  rwa [again.jitter] at hs₃

theorem waited {s₃ s₄ : σ} {event : RetryEvent} {delay : Duration} {interrupted : Bool} (hs₃ : P s₃)
    (wait : link.wait delay (link.observe event s₃) = (interrupted, s₄)) : P s₄ := by
  have hs₄ := h.wait delay _ (h.observe event s₃ hs₃)
  rwa [wait] at hs₄

/-- **A run over a link that loses its request ends with an error.** -/
theorem sends {left retries : Nat} {s s' : σ} {trace : List (Action σ)}
    {result : Except ApiError Http.Response}
    (sends : Sends link policy request left retries s trace result s') (hs : P s) :
    (∃ e, result = .error e) ∧ P s' := by
  induction sends with
  | cancelled _ => exact ⟨⟨_, rfl⟩, hs⟩
  | @noSlot _ _ s _ _ slot =>
    have hs₁ := h.slot s hs
    rw [slot] at hs₁
    exact ⟨⟨_, rfl⟩, hs₁⟩
  | noReply attempt => exact ⟨⟨_, rfl⟩, (h.attempted attempt hs).2⟩
  | tooLate attempt _ => exact ⟨⟨_, rfl⟩, (h.attempted attempt hs).2⟩
  | @final _ _ _ _ _ answer attempt _ _ =>
    obtain ⟨hlost, hs₂⟩ := h.attempted attempt hs
    cases answer with
    | none => exact ⟨⟨_, rfl⟩, hs₂⟩
    | some r => cases hlost
  | waitTooLong again _ => exact ⟨⟨_, rfl⟩, h.retryable again hs⟩
  | noWait again _ _ wait => exact ⟨⟨_, rfl⟩, h.waited (h.retryable again hs) wait⟩
  | retry again _ _ wait _ ih => exact ih (h.waited (h.retryable again hs) wait)

/-- **A call whose request is lost ends with an error.** -/
theorem send {c : Client} {r : ApiRequest} (hwire : r.wire c = .ok request) {s : σ} (hs : P s) :
    ∃ e s', link.send c r s = (.error e, s') ∧ P s' := by
  obtain ⟨trace, result, s', hsends, hcall, -⟩ := send_isRun link hwire s
  obtain ⟨⟨e, rfl⟩, hs'⟩ := h.sends hsends hs
  exact ⟨e, s', hcall, hs'⟩

end Loses
end Link

/-! ## 2. Rehearsals -/

section Rehearsals

variable {π : Type} {request : Http.Request}

theorem World.attempt_of_undeliverable (h : request.isDeliverable = false) (answer : Peer π)
    (interruptible : Bool) (w : World π) : w.attempt answer interruptible request = (.lost, w) := by
  rw [World.attempt, h]
  rfl

theorem World.peer_wait (interruptible : Bool) (delay : Duration) (w : World π) :
    (w.wait interruptible delay).2.peer = w.peer := by
  unfold World.wait
  repeat' split
  all_goals rfl

/-- **The peer does not hear of a request that cannot be delivered**, if the observer of
    retries leaves it alone. -/
theorem Rehearsal.loses {rehearsal : Rehearsal π} (h : request.isDeliverable = false)
    (quiet : ∀ f ∈ rehearsal.observer, ∀ event w, (f event w).peer = w.peer) (p : π) :
    rehearsal.link.Loses request fun w => w.peer = p where
  lost w _ := congrArg Prod.fst (World.attempt_of_undeliverable h _ _ w)
  slot _ hw := hw
  attempt w hw := (congrArg (·.2.peer) (World.attempt_of_undeliverable h _ _ w)).trans hw
  jitter _ _ hw := hw
  observe event w hw := by
    obtain ⟨answer, interruptible, observer⟩ := rehearsal
    cases observer with
    | none => exact hw
    | some f => exact (quiet f rfl event (Rehearsal.remember event w)).trans hw
  wait delay w hw := (w.peer_wait _ delay).trans hw

end Rehearsals

/-! ## 3. Operations -/

/-- Whether the request of an operation can be delivered, if it comes to one. -/
def Operation.isDeliverable (c : Client) (op : Operation) : Bool :=
  match (op.request c).bind (·.wire c) with
  | .ok request => request.isDeliverable
  | .error _ => true

theorem Operation.deliverable_of_wire {c : Client} {op : Operation} (h : op.isDeliverable c = true)
    {r : ApiRequest} (hr : op.request c = .ok r) {request : Http.Request} (hwire : r.wire c = .ok request) :
    request.isDeliverable = true := by
  rwa [isDeliverable, hr, Except.bind, hwire] at h

theorem Http.Request.isDeliverable_of (method method' : Http.Method) (url : Url)
    (headers headers' : Http.Headers) (body body' : Option Bytes) :
    (Http.Request.of method url headers body).isDeliverable =
      (Http.Request.of method' url headers' body').isDeliverable := by
  unfold Http.Request.of
  split <;> rfl

/-- **Whether a request can be delivered is up to its URL**, whatever is asked for there. -/
theorem Operation.deliverable_congr {c : Client} {op op' : Operation}
    (htoken : Http.isFieldValue ("Bearer " ++ c.token) = true) {call call' : Call}
    (hcall : op.call = .ok call) (hcall' : op'.call = .ok call') (hbase : call.base = call'.base)
    (hpath : call.path = call'.path) (hoptions : call.options = call'.options)
    (h : op.isDeliverable c = true) : op'.isDeliverable c = true := by
  have hsame : ∀ r', op'.request c = .ok r' → ∃ r, op.request c = .ok r ∧ r.url = r'.url := by
    intro r' hr'
    rw [request, hcall', Except.bind, Call.request_eq_ok_iff] at hr'
    obtain ⟨u, params, hu, hparams, rfl⟩ := hr'
    refine ⟨⟨call.method, u, Query.extend .empty params, call.body, call.accept, true⟩, ?_, rfl⟩
    rw [request, hcall, Except.bind, Call.request_eq_ok_iff]
    exact ⟨u, params, by rw [hbase, hpath, hu], by rw [hoptions, hparams], rfl⟩
  unfold isDeliverable
  cases hrequest' : op'.request c with
  | error e => rfl
  | ok r' =>
    rw [Except.bind]
    cases hwire' : r'.wire c with
    | error e => rfl
    | ok request' =>
      obtain ⟨r, hrequest, hurl⟩ := hsame r' hrequest'
      obtain ⟨request, hwire, -⟩ := ApiRequest.exists_wire htoken r
      have hdelivered := deliverable_of_wire h hrequest hwire
      obtain ⟨headers, -, rfl⟩ := r.wire_eq hwire
      obtain ⟨headers', -, rfl⟩ := r'.wire_eq hwire'
      rw [← hurl]
      exact (Http.Request.isDeliverable_of _ _ _ _ _ _ _).trans hdelivered

/-! ## 4. What makes a URL long -/

theorem Http.Request.undeliverable_of_long {request : Http.Request} (h : longestUrl < request.url.size) :
    request.isDeliverable = false := by
  rw [isDeliverable, decide_eq_false (Nat.not_le.2 h), Bool.and_false]

theorem Utf8.length_encode_append (s t : String) :
    (encode (s ++ t)).length = (encode s).length + (encode t).length := by
  rw [encode_eq, String.toList_append, encodeChars_append, List.length_append]
  rfl

theorem Utf8.length_encode_le_of_infix {s t : String} (h : s.toList <:+: t.toList) :
    (encode s).length ≤ (encode t).length := by
  obtain ⟨front, back, htext⟩ := h
  rw [encode_eq t, ← htext, encodeChars_append, encodeChars_append, List.length_append,
    List.length_append, encode_eq]
  omega

theorem Utf8.length_toList_le (s : String) : s.toList.length ≤ (encode s).length := by
  rw [encode_eq]
  induction s.toList with
  | nil => exact Nat.le_refl 0
  | cons c cs ih =>
    have hpos : 0 < (String.utf8EncodeChar c).length := by
      rw [String.length_utf8EncodeChar]
      exact c.utf8Size_pos
    rw [encodeChars_cons, List.length_append, List.length_cons]
    omega

theorem Url.length_path_le (u : Url) : (Utf8.encode u.path.text).length ≤ u.size := by
  simp only [size, text, Utf8.length_encode_append]
  omega

/-- **A part of the path is no longer than the URL.** -/
theorem Url.length_segment_le {u : Url} {parts : List String} (hpath : u.path = .segments parts)
    {part : String} (hpart : part ∈ parts) : (Utf8.encode part).length ≤ u.size := by
  refine Nat.le_trans (Utf8.length_encode_le_of_infix ?_) u.length_path_le
  have hjoined : ("/" ++ part).toList <:+: u.path.text.toList := by
    rw [hpath, UrlPath.text, String.toList_join, List.flatMap_def, List.map_map]
    exact List.infix_of_mem_flatten (List.mem_map_of_mem hpart)
  rw [String.toList_append] at hjoined
  exact (List.suffix_append _ _).isInfix.trans hjoined

theorem Url.length_query_le {u : Url} {query : String} (hquery : u.query = some query) :
    (Utf8.encode query).length ≤ u.size := by
  simp only [size, text, hquery, Utf8.length_encode_append]
  omega

theorem Percent.length_encode_le (s : String) :
    (Utf8.encode s).length ≤ (Utf8.encode (encode s)).length := by
  rw [← Utf8.decode?_eq_some_iff.1 (decode?_encode s)]
  exact length_decodeBytes_le _

theorem mem_intersperse {α : Type} {a sep : α} {l : List α} (h : a ∈ l) : a ∈ l.intersperse sep := by
  obtain ⟨i, hi⟩ := List.mem_iff_getElem?.1 h
  exact List.mem_iff_getElem?.2 ⟨2 * i, by rw [List.getElem?_intersperse_two_mul, hi]⟩

/-- **A value is no longer than the query.** -/
theorem Query.length_value_le {q : Query} {key value : String} (hkey : isListKey key = false)
    (hvalue : value ∈ valuesAt q key) : (Utf8.encode value).length ≤ (Utf8.encode q.encode).length := by
  obtain ⟨values, hfind⟩ : ∃ values, q.find? key = some values := by
    cases hfind : q.find? key with
    | none => simp [valuesAt, hfind] at hvalue
    | some values => exact ⟨values, rfl⟩
  rw [valuesAt, hfind, Option.getD_some] at hvalue
  have hpair : pair key value ∈ q.entries.flatMap fun e => pairs e.1 e.2 := by
    refine List.mem_flatMap.2 ⟨(key, values), (Keyed.mem_entries_iff _ _ _).2 hfind, ?_⟩
    rw [pairs, hkey, if_neg (by simp)]
    exact List.mem_map_of_mem hvalue
  have hinfix : (Percent.encode value).toList <:+: q.encode.toList := by
    have hmem := List.mem_map_of_mem (f := String.toList) hpair
    rw [encode, String.toList_intercalate]
    refine List.IsInfix.trans ?_ (List.infix_of_mem_flatten (mem_intersperse hmem))
    rw [toList_pair]
    exact (List.suffix_append_of_suffix (List.suffix_cons _ _)).isInfix
  exact Nat.le_trans (Percent.length_encode_le value) (Utf8.length_encode_le_of_infix hinfix)

/-! ### Long texts -/

/-- A text of so many letters. -/
def textOfLength (n : Nat) : String := String.ofList (List.replicate n 'a')

theorem toList_textOfLength (n : Nat) : (textOfLength n).toList = List.replicate n 'a' :=
  String.toList_ofList

/-- A text of more letters than a URL may have does not fit into any. -/
theorem longestUrl_lt_textOfLength {n : Nat} (h : longestUrl < n) :
    longestUrl < (Utf8.encode (textOfLength n)).length := by
  have hletters := Utf8.length_toList_le (textOfLength n)
  rw [toList_textOfLength, List.length_replicate] at hletters
  exact Nat.lt_of_lt_of_le h hletters

end TerraformCloud
