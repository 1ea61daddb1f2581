/-
  TerraformCloud/Proofs/Log/Polling.lean
  ======================================
  **What a reader of a log asks for.**

  A poll is a call: it fetches the URL of the log, with two more parameters behind those
  that the URL has.  They say how many bytes are wanted, and from which one on
  (`Url.pairs_addPair`, `fetchPiece_asks`).

  The offset is the number of the bytes that have arrived.  So a reading asks from where it
  was started, and no request goes back behind the one before (`reading_asks_onward`).
-/
import TerraformCloud.Proofs.Log.Reading
import TerraformCloud.Proofs.Sending.SendsOnly
import TerraformCloud.Proofs.Service.Addresses
import TerraformCloud.Proofs.Simulator.Form

namespace TerraformCloud

open Link (Action SendsOnly sentRequests)
open Simulator (formPairs)

/-! ## 1. Parameters behind others -/

theorem Percent.encode_of_unreserved {s : String}
    (h : ∀ c ∈ s.toList, c.toNat < 0x80 ∧ isUnreserved (UInt8.ofNat c.toNat) = true) : encode s = s := by
  rw [encode, Utf8.encode_eq, encodeBytes_of_plain, String.ofList_toList]
  intro c hc
  obtain ⟨hascii, hunreserved⟩ := h c hc
  exact ⟨hascii, by rw [hunreserved, Bool.not_true]⟩

theorem Percent.encode_toString (n : Nat) : encode (toString n) = toString n := by
  refine encode_of_unreserved fun c hc => ?_
  obtain ⟨hlow, hhigh⟩ := digit_range (isDigit_of_mem (by simpa using hc))
  have hbyte : (UInt8.ofNat c.toNat).toNat = c.toNat := Utf8.toNat_byte (by omega)
  refine ⟨by omega, ?_⟩
  simp [isUnreserved, UInt8.le_iff_toNat_le, hbyte, hlow, hhigh]

theorem formPairs_pair (key value : String) : formPairs (Query.pair key value) = [(key, value)] := by
  have hpiece : (Query.pair key value).toList.isEmpty = false := by
    rw [Query.toList_pair]
    simp
  obtain ⟨hkey, hvalue⟩ := Query.cut_pair key value
  rw [formPairs, Url.splitChars_of_not_mem (Query.amp_not_mem_pair key value), List.filter_singleton, hpiece]
  change [(Simulator.formText (List.takeWhile (· ≠ '=') _), Simulator.formText (List.drop 1 _))] = _
  rw [hkey, hvalue, Simulator.formText_encode, Simulator.formText_encode]

theorem formPairs_append (front back : String) :
    formPairs (front ++ "&" ++ back) = formPairs front ++ formPairs back := by
  have htext : (front ++ "&" ++ back).toList = front.toList ++ '&' :: back.toList := by
    rw [String.toList_append, String.toList_append, List.append_assoc]
    rfl
  rw [formPairs, htext, Url.splitChars_append, List.filter_append, List.map_append]
  rfl

namespace Url

/-- The parameters that a URL has. -/
def pairs (u : Url) : List (String × String) := formPairs (u.query.getD "")

/-- **A pair is one more parameter**, if it needs no escapes. -/
theorem pairs_addPair (u : Url) {key value : String} (hkey : Percent.encode key = key)
    (hvalue : Percent.encode value = value) : (u.addPair key value).pairs = u.pairs ++ [(key, value)] := by
  have hpair : key ++ "=" ++ value = Query.pair key value := by
    rw [Query.pair, hkey, hvalue]
  have hnone : formPairs "" = [] := rfl
  rw [pairs, pairs, addPair, hpair, ← formPairs_pair]
  dsimp only [Option.getD_some]
  cases u.query with
  | none => rw [Option.getD_none, hnone, List.nil_append]
  | some q =>
    dsimp only [Option.getD_some]
    split
    · next hempty => rw [String.isEmpty_iff.1 hempty, hnone, List.nil_append]
    · exact formPairs_append q _

end Url

/-! ## 2. A poll -/

/-- An owner whose own requests are not recorded. -/
def aside {σ : Type} (done : σ → Result σ Bool) (s : σ × List (Action σ)) :
    Result (σ × List (Action σ)) Bool :=
  ((done s.1).1, (done s.1).2, s.2)

namespace LogReader

/-- A request for a piece of the log at a URL. -/
structure AsksFrom (url : Url) (offset : Nat) (sent : Http.Request) : Prop where
  method : sent.method = .get
  body : sent.body = none
  place : { sent.url.withoutUser with query := none } = { url.withoutUser with query := none, fragment := none }
  pairs : sent.url.pairs = url.pairs ++ [("limit", toString pieceSize), ("offset", toString offset)]

theorem pairs_pieceUrl (url : Url) (offset : Nat) :
    (pieceUrl url offset).pairs = url.pairs ++ [("limit", toString pieceSize), ("offset", toString offset)] := by
  rw [pieceUrl, Url.pairs_addPair _ (by decide) (Percent.encode_toString _),
    Url.pairs_addPair _ (by decide) (Percent.encode_toString _), List.append_assoc]
  rfl

theorem asksFrom_of_wire {c : Client} {url : Url} {offset : Nat} {sent : Http.Request}
    (h : (Client.outside (pieceUrl url offset)).wire c = .ok sent) : AsksFrom url offset sent := by
  obtain ⟨headers, -, rfl⟩ := ApiRequest.wire_eq h
  refine ⟨Http.Request.of_method _ _ _ _, Http.Request.of_body _ _ _ _, ?_, ?_⟩
  · -- the user of the URL may travel in a header
    unfold Http.Request.of
    rcases url with ⟨scheme, _ | authority, path, query, fragment⟩ <;> split <;> rfl
  · rw [Url.pairs, Http.Request.of_query]
    exact pairs_pieceUrl url offset

variable {σ : Type} (link : Link σ) (c : Client) (url : Url) (done : σ → Result σ Bool)

/-- **A poll asks for the piece from its offset on**, and for nothing else. -/
theorem fetchPiece_asks (offset : Nat) (s : σ) :
    SendsOnly (AsksFrom url offset) (fetchPiece link c url offset s)
      fun log => fetchPiece link.traced c url offset (s, log) :=
  (link.sendsOnly_fetch c _ bodyOf s).mono fun _ hwire => asksFrom_of_wire hwire

/-! ## 3. A reading -/

/-- Requests for pieces from one offset on, none of them behind a later one, up to another. -/
def AsksOnward (url : Url) (first last : Nat) (sent : List Http.Request) : Prop :=
  ∃ offsets : List Nat, List.Forall₂ (AsksFrom url) offsets sent ∧ offsets.Pairwise (· ≤ ·) ∧
    ∀ offset ∈ offsets, first ≤ offset ∧ offset ≤ last

variable {url} {first last : Nat} {sent : List Http.Request}

theorem asksOnward_nil (url : Url) (first last : Nat) : AsksOnward url first last [] :=
  ⟨[], .nil, .nil, nofun⟩

/-- What is asked for next is where the bytes end that have arrived. -/
theorem AsksOnward.append (h : AsksOnward url first last sent) (hfirst : first ≤ last) {more : List Http.Request}
    (hmore : ∀ request ∈ more, AsksFrom url last request) (n : Nat) :
    AsksOnward url first (last + n) (sent ++ more) := by
  obtain ⟨offsets, hasks, hsorted, hbounds⟩ := h
  have hnew : List.Forall₂ (AsksFrom url) (List.replicate more.length last) more := by
    induction more with
    | nil => exact .nil
    | cons request more ih =>
      exact .cons (hmore request List.mem_cons_self) (ih fun r hr => hmore r (List.mem_cons_of_mem _ hr))
  refine ⟨offsets ++ List.replicate more.length last, List.rel_append hasks hnew, ?_, ?_⟩
  · refine List.pairwise_append.2 ⟨hsorted, List.pairwise_replicate.2 (.inr (Nat.le_refl last)), ?_⟩
    intro a ha b hb
    rw [List.eq_of_mem_replicate hb]
    exact (hbounds a ha).2
  · intro offset hoffset
    rcases List.mem_append.1 hoffset with hold | hlast
    · obtain ⟨hge, hle⟩ := hbounds offset hold
      exact ⟨hge, Nat.le_trans hle (Nat.le_add_right last n)⟩
    · rw [List.eq_of_mem_replicate hlast]
      exact ⟨hfirst, Nat.le_add_right last n⟩

variable (url) (first)

theorem keeps_asksOnward : (source link.traced c url (aside done)).Keeps fun offset s =>
    first ≤ offset ∧ AsksOnward url first offset (sentRequests s.2) where
  poll := by
    rintro offset ⟨s, log⟩ ⟨hfirst, hlog⟩
    obtain ⟨more, hpoll, hmore⟩ := (fetchPiece_asks link c url offset s).sentRequests_eq log
    refine ⟨Nat.le_trans hfirst (Nat.le_add_right _ _), ?_⟩
    change AsksOnward url first _ (sentRequests (fetchPiece link.traced c url offset (s, log)).2.2)
    rw [hpoll]
    exact hlog.append hfirst hmore _
  done _ _ h := h
  wait := by
    rintro offset delay ⟨s, log⟩ ⟨hfirst, hlog⟩
    change _ ∧ AsksOnward url first offset (sentRequests (link.traced.wait delay (s, log)).2.2)
    rw [link.sentRequests_wait]
    exact ⟨hfirst, hlog⟩

/-- **A reading asks for one piece behind the other**, from where the reader is to where it
    comes. -/
theorem reading_asks_onward (fuel calls : Nat) (reader : LogReader) (s : σ) :
    let source := source link.traced c url (aside done)
    (let (_, r, _, log) := readAll source fuel calls reader (s, [])
     AsksOnward url reader.offset r.offset (sentRequests log)) ∧
    let (_, r, _, log) := readSome source fuel calls reader (s, [])
    AsksOnward url reader.offset r.offset (sentRequests log) := by
  intro source
  have hkeeps := keeps_asksOnward link c url done reader.offset
  have hnone : reader.offset ≤ reader.offset ∧
      AsksOnward url reader.offset reader.offset (sentRequests (s, ([] : List (Action σ))).2) :=
    ⟨Nat.le_refl _, asksOnward_nil url _ _⟩
  exact ⟨(hkeeps.readAll fuel calls reader hnone).2, (hkeeps.readSome fuel calls reader hnone).2⟩

end LogReader
end TerraformCloud
