/-
  TerraformCloud/Proofs/Text/Percent.lean
  =======================================
  **Escapes are undone by reading, and hide every separator.**

  A byte is written as itself or as a triple.  Reading takes the bytes off again one
  after the other (`decodeBytes_encodeBytes`), so every text comes back whole
  (`decode?_encode`).  What is written consists of unreserved characters and percent
  signs only (`mem_encode`), and none of the characters that structure a query is one.

  Reading once too often does no harm to most texts: it changes those that have a triple
  (`decodeBytes_eq_self_iff`).
-/
import TerraformCloud.Proofs.Url.Identifier

namespace TerraformCloud.Percent

/-! ## 1. Digits in base sixteen -/

theorem hexValue?_upperHex : ∀ n : Fin 16, hexValue? (asciiByte (upperHex n)) = some n.val := by
  decide

theorem upperHex_plain : ∀ n : Fin 16,
    (upperHex n).toNat < 0x80 ∧ isUnreserved (UInt8.ofNat (upperHex n).toNat) = true := by
  decide

/-- Both digits of a byte. -/
theorem nibbles (b : UInt8) : b.toNat / 16 < 16 ∧ b.toNat % 16 < 16 := by
  have hbyte := b.toNat_lt
  omega

/-! ## 2. Reading -/

theorem decodeBytes_escaped {h l : UInt8} {x y : Nat} (hx : hexValue? h = some x)
    (hy : hexValue? l = some y) (rest : Bytes) :
    decodeBytes (percent :: h :: l :: rest) = UInt8.ofNat (x * 16 + y) :: decodeBytes rest := by
  refine (decodeBytes.eq_2 h l rest).trans ?_
  rw [hx, hy]

theorem decodeBytes_plain {b : UInt8} (hb : b ≠ percent) (rest : Bytes) :
    decodeBytes (b :: rest) = b :: decodeBytes rest := by
  rw [decodeBytes]
  intro h l rest' hpercent
  exact absurd hpercent hb

theorem encodeChars_escaped (b : UInt8) :
    Utf8.encodeChars (escaped b) =
      [percent, asciiByte (upperHex (b.toNat / 16)), asciiByte (upperHex (b.toNat % 16))] := by
  obtain ⟨hhigh, hlow⟩ := nibbles b
  have hplain := fun n : Fin 16 => utf8EncodeChar_of_ascii (upperHex_plain n).1
  rw [escaped, Utf8.encodeChars_cons, Utf8.encodeChars_cons, Utf8.encodeChars_cons,
    hplain ⟨_, hhigh⟩, hplain ⟨_, hlow⟩]
  rfl

theorem toNat_ofNat_of_ascii {n : Nat} (h : n < 0x80) : (Char.ofNat n).toNat = n := by
  rw [Char.toNat_ofNat, if_pos (.inl (by omega))]

theorem encodeChars_byte {b : UInt8} (h : b.toNat < 0x80) :
    Utf8.encodeChars [Char.ofNat b.toNat] = [b] := by
  have hchar : (Char.ofNat b.toNat).toNat = b.toNat := toNat_ofNat_of_ascii h
  rw [Utf8.encodeChars_cons, utf8EncodeChar_of_ascii (by rw [hchar]; exact h), hchar]
  exact congrArg ([·]) (UInt8.ofNat_toNat)

section Set

variable {mustEscape : UInt8 → Bool}

/-- **Reading undoes writing**, for every set that has the percent sign and all bytes
    that are no character. -/
theorem decodeBytes_encodeBytes
    (hset : ∀ b, mustEscape b = false → b.toNat < 0x80 ∧ b ≠ percent) (bytes : Bytes) :
    decodeBytes (Utf8.encodeChars (encodeBytes mustEscape bytes)) = bytes := by
  induction bytes with
  | nil => rw [encodeBytes, List.flatMap_nil, Utf8.encodeChars_nil, decodeBytes]
  | cons b bytes ih =>
    rw [encodeBytes, List.flatMap_cons, Utf8.encodeChars_append]
    cases hb : mustEscape b with
    | false =>
      obtain ⟨hascii, hne⟩ := hset b hb
      rw [if_neg Bool.false_ne_true, encodeChars_byte hascii, List.singleton_append,
        decodeBytes_plain hne]
      exact congrArg (b :: ·) ih
    | true =>
      obtain ⟨hhigh, hlow⟩ := nibbles b
      rw [if_pos rfl, encodeChars_escaped]
      simp only [List.cons_append, List.nil_append]
      rw [decodeBytes_escaped (hexValue?_upperHex ⟨_, hhigh⟩) (hexValue?_upperHex ⟨_, hlow⟩)]
      dsimp only
      rw [Nat.div_add_mod', UInt8.ofNat_toNat]
      exact congrArg (b :: ·) ih

theorem mem_encodeBytes {bytes : Bytes} {c : Char} (hc : c ∈ encodeBytes mustEscape bytes) :
    (∃ b, mustEscape b = false ∧ c = Char.ofNat b.toNat) ∨ c = '%' ∨ ∃ n : Fin 16, c = upperHex n := by
  obtain ⟨b, -, hc⟩ := List.mem_flatMap.1 hc
  obtain ⟨hhigh, hlow⟩ := nibbles b
  split at hc
  · rw [escaped, List.mem_cons, List.mem_cons, List.mem_singleton] at hc
    rcases hc with hc | hc | hc
    · exact .inr (.inl hc)
    · exact .inr (.inr ⟨⟨_, hhigh⟩, hc⟩)
    · exact .inr (.inr ⟨⟨_, hlow⟩, hc⟩)
  · next hb => exact .inl ⟨b, Bool.eq_false_iff.2 hb, List.mem_singleton.1 hc⟩

end Set

/-! ## 3. Texts -/

theorem plain_of_isUnreserved {b : UInt8} (h : isUnreserved b = true) :
    b.toNat < 0x80 ∧ b ≠ percent := by
  have hletters : isUnreserved b = true → b.toNat ≤ 0x7E ∧ b.toNat ≠ 0x25 := by
    simp only [isUnreserved, Bool.or_eq_true, Bool.and_eq_true, decide_eq_true_eq,
      UInt8.le_iff_toNat_le, ← UInt8.toNat_inj, UInt8.reduceToNat]
    omega
  refine ⟨by have := hletters h; omega, ?_⟩
  rintro rfl
  exact (hletters h).2 rfl

/-- **An escaped text reads as the text.** -/
theorem decode?_encode (s : String) : decode? (encode s) = some s := by
  rw [decode?, encode, Utf8.encode_eq, String.toList_ofList, decodeBytes_encodeBytes,
    Utf8.decode?_encode]
  intro b hb
  exact plain_of_isUnreserved (by simpa using hb)

/-- Escaped texts consist of unreserved characters and percent signs. -/
theorem mem_encode {s : String} {c : Char} (hc : c ∈ (encode s).toList) :
    c = '%' ∨ (c.toNat < 0x80 ∧ isUnreserved (UInt8.ofNat c.toNat) = true) := by
  rw [encode, String.toList_ofList] at hc
  rcases mem_encodeBytes hc with ⟨b, hb, rfl⟩ | hc | ⟨n, rfl⟩
  · have hunreserved : isUnreserved b = true := by simpa using hb
    have hascii := (plain_of_isUnreserved hunreserved).1
    rw [toNat_ofNat_of_ascii hascii, UInt8.ofNat_toNat]
    exact .inr ⟨hascii, hunreserved⟩
  · exact .inl hc
  · exact .inr (upperHex_plain n)

/-- A character that is reserved and no percent sign is never written. -/
theorem not_mem_encode {c : Char} (hpercent : c ≠ '%')
    (hreserved : isUnreserved (UInt8.ofNat c.toNat) = false) (s : String) :
    c ∉ (encode s).toList := by
  intro hc
  rcases mem_encode hc with hc | ⟨-, hc⟩
  · exact hpercent hc
  · rw [hreserved] at hc
    cases hc

/-! ## 4. Texts without escapes -/

/-- A percent sign with two digits in base sixteen behind it. -/
def IsTriple (bytes : Bytes) : Prop :=
  ∃ h l, (hexValue? h).isSome = true ∧ (hexValue? l).isSome = true ∧ bytes = [percent, h, l]

theorem decodeBytes_of_no_triple {b : UInt8} {rest : Bytes}
    (hno : ∀ t, IsTriple t → ¬t <+: b :: rest) :
    decodeBytes (b :: rest) = b :: decodeBytes rest := by
  by_cases hb : b = percent
  · subst hb
    rcases rest with _ | ⟨h, _ | ⟨l, rest⟩⟩
    · exact decodeBytes.eq_3 _ _ (by simp)
    · exact decodeBytes.eq_3 _ _ (by simp)
    · refine (decodeBytes.eq_2 h l rest).trans ?_
      split
      · next hx hy =>
        have htriple : IsTriple [percent, h, l] := ⟨h, l, by rw [hx]; rfl, by rw [hy]; rfl, rfl⟩
        exact absurd (List.prefix_append _ rest) (hno _ htriple)
      · rfl
  · exact decodeBytes_plain hb rest

/-- Reading takes off a triple, or one byte where none begins. -/
theorem decodeBytes_cons (b : UInt8) (rest : Bytes) :
    (∃ h l r c, b :: rest = percent :: h :: l :: r ∧ IsTriple [percent, h, l] ∧
      decodeBytes (b :: rest) = c :: decodeBytes r) ∨
    decodeBytes (b :: rest) = b :: decodeBytes rest ∧ ∀ t, IsTriple t → ¬t <+: b :: rest := by
  by_cases htriple : ∃ t, IsTriple t ∧ t <+: b :: rest
  · obtain ⟨_, ⟨h, l, hh, hl, rfl⟩, r, hr⟩ := htriple
    obtain ⟨x, hx⟩ := Option.isSome_iff_exists.1 hh
    obtain ⟨y, hy⟩ := Option.isSome_iff_exists.1 hl
    rw [← hr]
    exact .inl ⟨h, l, r, _, rfl, ⟨h, l, hh, hl, rfl⟩, decodeBytes_escaped hx hy r⟩
  · have hno : ∀ t, IsTriple t → ¬t <+: b :: rest := fun t ht hprefix => htriple ⟨t, ht, hprefix⟩
    exact .inr ⟨decodeBytes_of_no_triple hno, hno⟩

theorem length_decodeBytes_le (bytes : Bytes) : (decodeBytes bytes).length ≤ bytes.length := by
  induction hlength : bytes.length using Nat.strongRecOn generalizing bytes with
  | ind n ih =>
    cases bytes with
    | nil => simp [decodeBytes]
    | cons b rest =>
      rcases decodeBytes_cons b rest with ⟨h, l, r, c, hbytes, -, hread⟩ | ⟨hread, -⟩
      · have hsize := congrArg List.length hbytes
        simp only [List.length_cons] at hsize hlength
        have hle := ih r.length (by omega) r rfl
        rw [hread, List.length_cons]
        omega
      · rw [List.length_cons] at hlength
        have hle := ih rest.length (by omega) rest rfl
        rw [hread, List.length_cons]
        omega

/-- **Reading leaves a text as it is exactly if it has no triple.** -/
theorem decodeBytes_eq_self_iff {bytes : Bytes} :
    decodeBytes bytes = bytes ↔ ∀ t, IsTriple t → ¬t <:+: bytes := by
  induction bytes with
  | nil =>
    refine iff_of_true (by rw [decodeBytes]) ?_
    rintro _ ⟨h, l, -, -, rfl⟩ hinfix
    cases List.infix_nil.1 hinfix
  | cons b rest ih =>
    rcases decodeBytes_cons b rest with ⟨h, l, r, c, hbytes, htriple, hread⟩ | ⟨hread, hno⟩
    · rw [hread, hbytes]
      apply iff_of_false
      · intro heq
        have hsize := congrArg List.length heq
        have hle := length_decodeBytes_le r
        simp only [List.length_cons] at hsize
        omega
      · exact fun hall => hall _ htriple (List.prefix_append _ r).isInfix
    · rw [hread, List.cons_inj_right, ih]
      simp only [List.infix_cons_iff, not_or]
      exact ⟨fun hrest t ht => ⟨hno t ht, hrest t ht⟩, fun hall t ht => (hall t ht).2⟩

end TerraformCloud.Percent
