/-
  TerraformCloud/Proofs/Text/Characters.lean
  ==========================================
  **What is read as a character is the encoding of it.**

  Encoded characters are read back.  The opposite holds as well: no two lists of bytes read
  as the same character, and none that is ill formed reads as one (`next_char_encodes`).  For
  a lead byte fixes a test for each byte behind it, and bytes that pass them all are those of
  the character which they spell (`Lead`).

  Bytes that pass some of the tests and then end are the start of a character.  As each test
  can be passed, more bytes complete it (`started_of_cut`).
-/
import Mathlib.Data.List.Forall2
import TerraformCloud.Proofs.Text.Order

namespace TerraformCloud.Utf8

/-! ## 1. Bytes that spell a character -/

theorem isContinuation_of_isSecond {lead b : UInt8} (h : isSecond lead b = true) :
    isContinuation b = true := by
  rw [isSecond_iff] at h
  rw [isContinuation_iff]
  constructor
  · have hlo := h.1
    split at hlo
    · omega
    · split at hlo <;> omega
  · have hhi := h.2
    split at hhi
    · omega
    · split at hhi <;> omega

section Spelling

variable {b c d e : UInt8}

theorem ofNat_byte {n : Nat} (h : b.toNat = n) : UInt8.ofNat n = b := by
  subst h
  exact UInt8.ofNat_toNat

theorem toNat_codePoint {lead n : Nat} {bytes : Bytes}
    (h : bytes.foldl (fun n b => n * 64 + (b.toNat - 0x80)) lead = n) (valid : n.isValidChar) :
    (codePoint lead bytes).toNat = n := by
  subst h
  rw [codePoint, Char.ofNat, dif_pos valid]
  exact UInt32.toNat_ofNatLT

theorem encodeChar_one (hb : b.toNat < 0x80) :
    String.utf8EncodeChar (codePoint b.toNat []) = [b] := by
  have hpoint : (codePoint b.toNat []).toNat = b.toNat := toNat_codePoint rfl (.inl (by omega))
  rcases utf8EncodeChar_cases (codePoint b.toNat []) with h | h | h | h
  · rw [h.2, hpoint, UInt8.ofNat_toNat]
  all_goals omega

theorem encodeChar_two (hb : 0xC2 ≤ b.toNat ∧ b.toNat ≤ 0xDF) (hc : isContinuation c = true) :
    String.utf8EncodeChar (codePoint (b.toNat - 0xC0) [c]) = [b, c] := by
  rw [isContinuation_iff] at hc
  obtain ⟨n, hn⟩ : ∃ n, (b.toNat - 0xC0) * 64 + (c.toNat - 0x80) = n := ⟨_, rfl⟩
  have hpoint : (codePoint (b.toNat - 0xC0) [c]).toNat = n := toNat_codePoint hn (.inl (by omega))
  rcases utf8EncodeChar_cases (codePoint (b.toNat - 0xC0) [c]) with h | h | h | h
  · omega
  · rw [h.2.2, hpoint, ofNat_byte (b := b) (by omega), ofNat_byte (b := c) (by omega)]
  all_goals omega

theorem encodeChar_three (hb : 0xE0 ≤ b.toNat ∧ b.toNat ≤ 0xEF) (hc : isSecond b c = true)
    (hd : isContinuation d = true) :
    String.utf8EncodeChar (codePoint (b.toNat - 0xE0) [c, d]) = [b, c, d] := by
  have hc' := isContinuation_of_isSecond hc
  rw [isContinuation_iff] at hc' hd
  rw [isSecond_iff] at hc
  obtain ⟨n, hn⟩ : ∃ n,
    ((b.toNat - 0xE0) * 64 + (c.toNat - 0x80)) * 64 + (d.toNat - 0x80) = n := ⟨_, rfl⟩
  -- after `E0` the form is not overlong, after `ED` it is no surrogate
  have hrange : 0x800 ≤ n ∧ n < 0x10000 ∧ (n < 0xD800 ∨ 0xDFFF < n ∧ n < 0x110000) := by grind
  have hpoint : (codePoint (b.toNat - 0xE0) [c, d]).toNat = n := toNat_codePoint hn hrange.2.2
  rcases utf8EncodeChar_cases (codePoint (b.toNat - 0xE0) [c, d]) with h | h | h | h
  · omega
  · omega
  · rw [h.2.2, hpoint, ofNat_byte (b := b) (by omega), ofNat_byte (b := c) (by omega),
      ofNat_byte (b := d) (by omega)]
  · omega

theorem encodeChar_four (hb : 0xF0 ≤ b.toNat ∧ b.toNat ≤ 0xF4) (hc : isSecond b c = true)
    (hd : isContinuation d = true) (he : isContinuation e = true) :
    String.utf8EncodeChar (codePoint (b.toNat - 0xF0) [c, d, e]) = [b, c, d, e] := by
  have hc' := isContinuation_of_isSecond hc
  rw [isContinuation_iff] at hc' hd he
  rw [isSecond_iff] at hc
  obtain ⟨n, hn⟩ : ∃ n, (((b.toNat - 0xF0) * 64 + (c.toNat - 0x80)) * 64 + (d.toNat - 0x80)) * 64 +
    (e.toNat - 0x80) = n := ⟨_, rfl⟩
  -- after `F0` the form is not overlong, after `F4` it is a code point
  have hrange : 0x10000 ≤ n ∧ n < 0x110000 := by grind
  have hpoint : (codePoint (b.toNat - 0xF0) [c, d, e]).toNat = n :=
    toNat_codePoint hn (.inr (by omega))
  rcases utf8EncodeChar_cases (codePoint (b.toNat - 0xF0) [c, d, e]) with h | h | h | h
  · omega
  · omega
  · omega
  · rw [h.2.2, hpoint, ofNat_byte (b := b) (by omega), ofNat_byte (b := c) (by omega),
      ofNat_byte (b := d) (by omega), ofNat_byte (b := e) (by omega)]

end Spelling

/-! ## 2. Lead bytes

`next` tests the bytes behind a lead byte one after the other; the lead byte fixes the
tests.  Told this way, everything below about cut bytes is an induction on the tests. -/

/-- Reads on behind a lead byte, with a test for each byte that has to follow. -/
def follow (spell : Bytes → Char) : List (UInt8 → Bool) → Bytes → Bytes → Piece × Bytes
  | [], read, rest => (.char (spell read), rest)
  | _ :: _, _, [] => (.cut, [])
  | test :: tests, read, c :: rest =>
    if test c then follow spell tests (read ++ [c]) rest else (.broken, c :: rest)

/-- A test for a byte that has to follow: some byte passes, and no other than continuation
    bytes do. -/
structure IsTest (test : UInt8 → Bool) : Prop where
  passable : ∃ c, test c = true
  continues : ∀ c, test c = true → isContinuation c = true

theorem isTest_isContinuation : IsTest isContinuation :=
  ⟨⟨0x80, rfl⟩, fun _ => id⟩

theorem isTest_isSecond (b : UInt8) : IsTest (isSecond b) := by
  refine ⟨?_, fun c => isContinuation_of_isSecond⟩
  by_cases h : b = 0xE0
  · exact ⟨0xA0, by rw [h]; rfl⟩
  by_cases h' : b = 0xF0
  · exact ⟨0x90, by rw [h']; rfl⟩
  · exact ⟨0x80, by simp [isSecond, isContinuation, h, h']⟩

/-- Bytes that pass tests, each one its own. -/
abbrev Pass : List (UInt8 → Bool) → Bytes → Prop := List.Forall₂ fun test c => test c = true

/-- A byte that starts characters. -/
structure Lead (b : UInt8) (spell : Bytes → Char) (tests : List (UInt8 → Bool)) : Prop where
  reads : ∀ rest, next b rest = follow spell tests [] rest
  spells : ∀ bytes, Pass tests bytes → String.utf8EncodeChar (spell bytes) = b :: bytes
  isTest : ∀ test ∈ tests, IsTest test
  short : tests.length ≤ 3

/-- A byte starts characters, or reading breaks off at once. -/
theorem lead_or_broken (b : UInt8) :
    (∃ spell tests, Lead b spell tests) ∨ ∀ rest, next b rest = (.broken, rest) := by
  by_cases h1 : b < 0x80
  · refine .inl ⟨fun _ => codePoint b.toNat [], [], ?_, ?_, by simp, by simp⟩
    · intro rest
      rw [next.eq_def, if_pos h1, follow]
      rfl
    · rintro _ ⟨⟩
      exact encodeChar_one (UInt8.lt_iff_toNat_lt.1 h1)
  by_cases h2 : (decide (0xC2 ≤ b) && decide (b ≤ 0xDF)) = true
  · refine .inl ⟨codePoint (b.toNat - 0xC0), [isContinuation], ?_, ?_, ?_, by simp⟩
    · intro rest
      rw [next.eq_def, if_neg h1, if_pos h2]
      cases rest <;> rfl
    · rintro _ (_ | ⟨hc, _ | _⟩)
      exact encodeChar_two ((lead_within _ _).1 h2) hc
    · simpa using isTest_isContinuation
  by_cases h3 : (decide (0xE0 ≤ b) && decide (b ≤ 0xEF)) = true
  · refine .inl ⟨codePoint (b.toNat - 0xE0), [isSecond b, isContinuation], ?_, ?_, ?_, by simp⟩
    · intro rest
      rw [next.eq_def, if_neg h1, if_neg h2, if_pos h3]
      rcases rest with _ | ⟨c, _ | ⟨d, rest⟩⟩ <;> rfl
    · rintro _ (_ | ⟨hc, _ | ⟨hd, _ | _⟩⟩)
      exact encodeChar_three ((lead_within _ _).1 h3) hc hd
    · simpa using ⟨isTest_isSecond b, isTest_isContinuation⟩
  by_cases h4 : (decide (0xF0 ≤ b) && decide (b ≤ 0xF4)) = true
  · refine .inl ⟨codePoint (b.toNat - 0xF0), [isSecond b, isContinuation, isContinuation],
      ?_, ?_, ?_, by simp⟩
    · intro rest
      rw [next.eq_def, if_neg h1, if_neg h2, if_neg h3, if_pos h4]
      rcases rest with _ | ⟨c, _ | ⟨d, _ | ⟨e, rest⟩⟩⟩ <;> rfl
    · rintro _ (_ | ⟨hc, _ | ⟨hd, _ | ⟨he, _ | _⟩⟩⟩)
      exact encodeChar_four ((lead_within _ _).1 h4) hc hd he
    · simpa using ⟨isTest_isSecond b, isTest_isContinuation⟩
  · refine .inr fun rest => ?_
    rw [next.eq_def, if_neg h1, if_neg h2, if_neg h3, if_neg h4]

/-- A byte starts no character, or it is followed by continuation bytes. -/
theorem next_eq_follow (b : UInt8) :
    (∀ rest, next b rest = (.broken, rest)) ∨
      ∃ spell tests, (∀ test ∈ tests, ∀ c, test c = true → isContinuation c = true) ∧
        ∀ rest, next b rest = follow spell tests [] rest := by
  rcases lead_or_broken b with ⟨spell, tests, lead⟩ | hbroken
  · exact .inr ⟨spell, tests, fun test h => (lead.isTest test h).continues, lead.reads⟩
  · exact .inl hbroken

section Follow

variable {spell : Bytes → Char} {tests : List (UInt8 → Bool)} {read rest r : Bytes} {c : Char}

/-- A character is spelt by bytes that pass all tests. -/
theorem pass_of_follow_char (h : follow spell tests read rest = (.char c, r)) :
    ∃ q, Pass tests q ∧ rest = q ++ r ∧ c = spell (read ++ q) := by
  induction tests generalizing read rest with
  | nil =>
    cases h
    exact ⟨[], .nil, rfl, by rw [List.append_nil]⟩
  | cons test tests ih =>
    cases rest with
    | nil => cases h
    | cons d rest =>
      simp only [follow] at h
      split at h
      · next hd =>
        obtain ⟨q, hq, rfl, rfl⟩ := ih h
        exact ⟨d :: q, .cons hd hq, rfl, by rw [List.append_assoc, List.singleton_append]⟩
      · cases h

/-- Bytes that are cut pass some tests, and there are more. -/
theorem pass_of_follow_cut (h : (follow spell tests read rest).1 = .cut) :
    ∃ passed left, tests = passed ++ left ∧ left ≠ [] ∧ Pass passed rest := by
  induction tests generalizing read rest with
  | nil => cases h
  | cons test tests ih =>
    cases rest with
    | nil => exact ⟨[], test :: tests, rfl, List.cons_ne_nil _ _, .nil⟩
    | cons d rest =>
      simp only [follow] at h
      split at h
      · next hd =>
        obtain ⟨passed, left, rfl, hleft, hpass⟩ := ih h
        exact ⟨test :: passed, left, rfl, hleft, .cons hd hpass⟩
      · cases h

theorem exists_pass (h : ∀ test ∈ tests, IsTest test) :
    ∃ q, Pass tests q ∧ ∀ c ∈ q, isContinuation c = true := by
  induction tests with
  | nil => exact ⟨[], .nil, by simp⟩
  | cons test tests ih =>
    obtain ⟨⟨c, hc⟩, hcontinues⟩ := h test List.mem_cons_self
    obtain ⟨q, hq, hall⟩ := ih fun test hmem => h test (List.mem_cons_of_mem _ hmem)
    exact ⟨c :: q, .cons hc hq, by simpa using ⟨hcontinues c hc, hall⟩⟩

end Follow

/-! ## 3. Characters -/

/-- **What is read as a character is the encoding of it.** -/
theorem next_char_encodes {b : UInt8} {rest r : Bytes} {c : Char}
    (h : next b rest = (.char c, r)) : b :: rest = String.utf8EncodeChar c ++ r := by
  rcases lead_or_broken b with ⟨spell, tests, lead⟩ | hbroken
  · rw [lead.reads] at h
    obtain ⟨q, hq, rfl, rfl⟩ := pass_of_follow_char h
    rw [List.nil_append, lead.spells q hq, List.cons_append]
  · rw [hbroken] at h
    cases h

/-- One to three bytes that continuation bytes complete to a character. -/
structure Started (bytes : Bytes) : Prop where
  nonempty : bytes ≠ []
  short : bytes.length ≤ 3
  completes : ∃ c q, q ≠ [] ∧ (∀ d ∈ q, isContinuation d = true) ∧
    bytes ++ q = String.utf8EncodeChar c

/-- Bytes that end inside a character are the start of one. -/
theorem started_of_cut {b : UInt8} {t : Bytes} (h : (next b t).1 = .cut) : Started (b :: t) := by
  rcases lead_or_broken b with ⟨spell, tests, lead⟩ | hbroken
  · rw [lead.reads] at h
    obtain ⟨passed, left, rfl, hleft, hpassed⟩ := pass_of_follow_cut h
    obtain ⟨q, hq, hcontinues⟩ :=
      exists_pass fun test h => lead.isTest test (List.mem_append_right _ h)
    refine ⟨List.cons_ne_nil _ _, ?_, spell (t ++ q), q, ?_, hcontinues, ?_⟩
    · have hshort := lead.short
      have hlength := hpassed.length_eq
      have hpos := List.length_pos_iff.2 hleft
      rw [List.length_append] at hshort
      rw [List.length_cons]
      omega
    · rintro rfl
      cases hq
      exact hleft rfl
    · rw [List.cons_append, lead.spells _ (List.rel_append hpassed hq)]
  · rw [hbroken] at h
    cases h

/-! ## 4. Texts -/

/-- Only what a text encodes to decodes to it. -/
theorem decodeChars?_eq_some_iff {bytes : Bytes} {cs : List Char} :
    decodeChars? bytes = some cs ↔ bytes = encodeChars cs := by
  constructor
  · intro h
    induction bytes using decodeChars?.induct generalizing cs with
    | case1 =>
      rw [decodeChars?] at h
      cases h
      rfl
    | case2 b rest c r hnext ih =>
      rw [decodeChars?_of_char hnext] at h
      obtain ⟨cs, hcs, rfl⟩ := Option.map_eq_some_iff.1 h
      rw [next_char_encodes hnext, ih hcs, encodeChars_cons]
    | case3 b rest hne =>
      rw [decodeChars?] at h
      split at h
      · next hnext => exact absurd hnext (hne _ _)
      · cases h
  · rintro rfl
    exact decodeChars?_encodeChars cs

theorem decode?_eq_some_iff {bytes : Bytes} {s : String} :
    decode? bytes = some s ↔ bytes = encode s := by
  rw [decode?, Option.map_eq_some_iff, encode_eq]
  constructor
  · rintro ⟨cs, hcs, rfl⟩
    rw [decodeChars?_eq_some_iff.1 hcs, String.toList_ofList]
  · rintro rfl
    exact ⟨s.toList, decodeChars?_encodeChars _, String.ofList_toList⟩

theorem encode_inj {s t : String} : encode s = encode t ↔ s = t := by
  constructor
  · intro h
    have hread := congrArg decode? h
    rw [decode?_encode, decode?_encode] at hread
    exact Option.some.inj hread
  · exact congrArg encode

end TerraformCloud.Utf8
