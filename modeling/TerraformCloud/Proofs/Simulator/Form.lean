/-
  TerraformCloud/Proofs/Simulator/Form.lean
  =========================================
  **A query arrives as a form.**

  The simulated service reads the query of a request as a form, in which a plus sign is
  a blank.  A query that was written from parameters has no plus sign, and nothing in it
  that a URL would escape, so the form has exactly the pairs that were sent
  (`formPairs_encode`), and below a name that is no list its values (`formValue?_encode`).
-/
import TerraformCloud.Proofs.Query.Canonical
import TerraformCloud.Proofs.Text.Digits
import TerraformCloud.Simulator.Endpoint

namespace TerraformCloud

/-! ## 1. In a URL -/

namespace Url

/-- What an escaped query is written with. -/
def isQueryChar (c : Char) : Bool :=
  c = '&' || c = '=' || c = '%' || Percent.isUnreserved (UInt8.ofNat c.toNat)

theorem isQueryChar_of_mem {q : Query} {c : Char} (h : c ∈ q.encode.toList) :
    c.toNat < 0x80 ∧ isQueryChar c = true := by
  rw [Query.encode_eq] at h
  rcases mem_intercalate h with h | ⟨s, hs, h⟩
  · rw [List.mem_singleton.1 h]
    decide
  · obtain ⟨p, -, rfl⟩ := List.mem_map.1 hs
    rw [Query.toList_pair, List.mem_append, List.mem_cons] at h
    have hside : ∀ {t : String}, c ∈ (Percent.encode t).toList → c.toNat < 0x80 ∧ isQueryChar c = true := by
      intro t ht
      rcases Percent.mem_encode ht with rfl | ⟨hascii, hunreserved⟩
      · decide
      · exact ⟨hascii, by rw [isQueryChar, hunreserved, Bool.or_true]⟩
    rcases h with h | rfl | h
    · exact hside h
    · decide
    · exact hside h

theorem queryChar_ofNat : ∀ n : Fin 128, isQueryChar (Char.ofNat n) = true →
    querySet (UInt8.ofNat n) = false ∧ specialQuerySet (UInt8.ofNat n) = false ∧
      (Char.ofNat n ≠ '\t' ∧ Char.ofNat n ≠ '\n' ∧ Char.ofNat n ≠ '\r') := by
  decide

/-- **A query that was written from parameters is kept by a URL.** -/
theorem setQuery_encode (u : Url) (q : Query) : (u.setQuery q.encode).query = some q.encode := by
  have hchar : ∀ c ∈ q.encode.toList, querySet (UInt8.ofNat c.toNat) = false ∧
      specialQuerySet (UInt8.ofNat c.toNat) = false ∧ (c ≠ '\t' ∧ c ≠ '\n' ∧ c ≠ '\r') := by
    intro c hc
    obtain ⟨hascii, hquery⟩ := isQueryChar_of_mem hc
    have h := queryChar_ofNat ⟨c.toNat, hascii⟩ (by rwa [Char.ofNat_toNat])
    rwa [Char.ofNat_toNat] at h
  have hkeep : q.encode.toList.filter (fun c => c ≠ '\t' ∧ c ≠ '\n' ∧ c ≠ '\r') = q.encode.toList := by
    refine List.filter_eq_self.2 fun c hc => ?_
    rw [decide_eq_true_iff]
    exact (hchar c hc).2.2
  rw [setQuery, hkeep]
  dsimp only
  rw [escape, Utf8.encode_eq, String.toList_ofList, encodeBytes_of_plain, String.ofList_toList]
  intro c hc
  refine ⟨(isQueryChar_of_mem hc).1, ?_⟩
  split
  · exact (hchar c hc).2.1
  · exact (hchar c hc).1

end Url

/-! ## 2. As a form -/

namespace Simulator

theorem formText_encode (s : String) : formText (Percent.encode s).toList = s := by
  have hplain : ((Percent.encode s).toList.map fun c => if c = '+' then ' ' else c) =
      (Percent.encode s).toList := by
    refine (List.map_congr_left fun c hc => if_neg ?_).trans (List.map_id _)
    rintro rfl
    exact Percent.not_mem_encode (by decide) (by decide) s hc
  have hbytes : Percent.decodeBytes (Utf8.encode (Percent.encode s)) = Utf8.encode s := by
    rw [Percent.encode, Utf8.encode_eq, String.toList_ofList, Percent.decodeBytes_encodeBytes]
    exact fun b hb => Percent.plain_of_isUnreserved (by simpa using hb)
  rw [formText, hplain, String.ofList_toList, hbytes, Utf8.encode_eq, Utf8.decodeLossy_encodeChars,
    String.ofList_toList]

/-- **The form has the pairs that were sent.** -/
theorem formPairs_encode (q : Query) :
    formPairs q.encode = q.entries.flatMap fun e => Query.sent e.1 e.2 := by
  rw [Query.encode_eq, formPairs, Query.pieces_intercalate, List.map_map]
  refine (List.map_congr_left fun p _ => ?_).trans (List.map_id _)
  obtain ⟨hkey, hvalue⟩ := Query.cut_pair p.1 p.2
  rw [Function.comp_apply]
  dsimp only
  rw [hkey, hvalue, formText_encode, formText_encode]
  rfl

/-- Below a name that is no list the form has its values. -/
theorem valuesOf_formPairs (q : Query) {name : String} (h : Query.isListKey name = false) :
    Query.valuesOf name (formPairs q.encode) = Query.valuesAt q name := by
  have hkeys : ∀ e ∈ q.entries, ∀ p ∈ Query.sent e.1 e.2, p.1 = e.1 := by
    intro e _ p hp
    rw [Query.sent] at hp
    split at hp
    · rw [List.mem_singleton.1 hp]
    · obtain ⟨v, -, rfl⟩ := List.mem_map.1 hp
      rfl
  have hlist : ¬(name = "include" ∨ "filter[".toList <:+: name.toList) := by
    rw [← Query.isListKey_iff, h]
    exact Bool.false_ne_true
  have hsent : ∀ values, (Query.sent name values).map (·.2) = values := by
    intro values
    rw [Query.sent, if_neg (fun hjoined => hlist hjoined.2), List.map_map]
    exact List.map_id _
  rw [formPairs_encode, Query.valuesOf_flatMap hkeys, Keyed.filter_entries, Query.valuesAt]
  cases q.find? name with
  | none => rfl
  | some values => exact (List.append_nil _).trans (hsent values)

theorem formValue?_encode {q : Query} {name : String} (h : Query.isListKey name = false)
    {value : Option String} (hvalue : Query.valuesAt q name = value.toList) :
    formValue? (formPairs q.encode) name = some value := by
  have hfound := valuesOf_formPairs q h
  rw [Query.valuesOf, hvalue] at hfound
  rw [formValue?, hfound]
  cases value <;> rfl

/-! ## 3. The parameters of a list -/

theorem formNatural?_toDigits (n : UInt32) :
    formNatural? (String.ofList (Nat.toDigits 10 n.toNat)) = some n := by
  have hplus : (Nat.toDigits 10 n.toNat).head? ≠ some '+' := by
    intro hhead
    have hdigit := isDigit_of_mem (List.mem_of_mem_head? hhead)
    cases hdigit
  rw [formNatural?, String.toList_ofList, if_neg hplus, natOfDigits?_toDigits]
  dsimp only
  rw [if_pos n.toNat_lt, UInt32.ofNat_toNat]

theorem natural?_encode {q : Query} {name : String} (h : Query.isListKey name = false) {n : UInt32}
    (hvalue : Query.valuesAt q name = [String.ofList (Nat.toDigits 10 n.toNat)]) :
    ListQuery.natural? (formPairs q.encode) name = some (some n) := by
  have hsome : Query.valuesAt q name = (some (String.ofList (Nat.toDigits 10 n.toNat))).toList := hvalue
  rw [ListQuery.natural?, formValue?_encode h hsome]
  exact congrArg (Option.map some) (formNatural?_toDigits n)

/-- **The service reads the page and the search that were asked for.** -/
theorem ofQuery?_encode {q : Query} {number size : UInt32} {search : Option String}
    (hnumber : Query.valuesAt q "page[number]" = [String.ofList (Nat.toDigits 10 number.toNat)])
    (hsize : Query.valuesAt q "page[size]" = [String.ofList (Nat.toDigits 10 size.toNat)])
    (hsearch : Query.valuesAt q "search[name]" = search.toList) :
    ListQuery.ofQuery? true (some q.encode) = some ⟨some number, some size, search⟩ := by
  rw [ListQuery.ofQuery?, Option.getD_some, natural?_encode (by decide) hnumber,
    natural?_encode (by decide) hsize, formValue?_encode (by decide) hsearch]
  rfl

end Simulator
end TerraformCloud
