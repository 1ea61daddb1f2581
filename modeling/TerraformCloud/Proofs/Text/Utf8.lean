/-
  TerraformCloud/Proofs/Text/Utf8.lean
  ====================================
  **Reading back what was encoded, cut anywhere.**

  `Utf8.next` reads one character off a list of bytes.  On the bytes of a character
  it reads that character, whatever stands behind them, and on a part of them it asks
  for more (`spells_encodeChar`).  Two facts about whole texts follow, and a reader of
  pieces needs no others:

    * decoding reads the characters in front of anything
      (`decodeLossy_encodeChars_append`);
    * a text that is cut at any byte is a number of whole characters and the tail
      that has to be held back (`split_of_prefix`).
-/
import TerraformCloud.Text.Utf8

namespace TerraformCloud.Utf8

/-! ## 1. Bytes as numbers -/

/-- A character lies below the surrogates or behind them. -/
theorem char_range (c : Char) : c.toNat < 0xD800 ∨ (0xDFFF < c.toNat ∧ c.toNat < 0x110000) :=
  c.valid

theorem toNat_byte {n : Nat} (h : n < 256) : (UInt8.ofNat n).toNat = n := by
  rw [UInt8.toNat_ofNat', Nat.mod_eq_of_lt h]

theorem isContinuation_iff (b : UInt8) :
    isContinuation b = true ↔ 0x80 ≤ b.toNat ∧ b.toNat ≤ 0xBF := by
  simp [isContinuation, UInt8.le_iff_toNat_le]

theorem isContinuation_byte (n : Nat) : isContinuation (UInt8.ofNat (n % 64 + 0x80)) = true := by
  rw [isContinuation_iff, toNat_byte (by omega)]
  omega

theorem isSecond_iff (lead b : UInt8) :
    isSecond lead b = true ↔
      (if lead.toNat = 0xE0 then 0xA0 else if lead.toNat = 0xF0 then 0x90 else 0x80) ≤ b.toNat ∧
      b.toNat ≤ (if lead.toNat = 0xED then 0x9F else if lead.toNat = 0xF4 then 0x8F else 0xBF) := by
  unfold isSecond isContinuation
  simp only [← UInt8.toNat_inj, UInt8.le_iff_toNat_le]
  grind

/-! ## 2. One character, by its lead byte

The number of bytes follows from the lead byte, so each length has its own
description of `next`: what it does with all of the bytes, and with fewer. -/

section Leads

variable {b : UInt8}

theorem not_ascii (h : 0x80 ≤ b.toNat) : ¬ b < 0x80 := by
  rw [UInt8.lt_iff_toNat_lt, Nat.not_lt]
  exact h

theorem lead_within (lo hi : UInt8) :
    (decide (lo ≤ b) && decide (b ≤ hi)) = true ↔ lo.toNat ≤ b.toNat ∧ b.toNat ≤ hi.toNat := by
  simp [UInt8.le_iff_toNat_le]

theorem next_ascii (h : b.toNat < 0x80) (rest : Bytes) :
    next b rest = (.char (Char.ofNat b.toNat), rest) := by
  have h1 : b < 0x80 := UInt8.lt_iff_toNat_lt.2 h
  simp [next, h1]

theorem next_two (h : 0xC2 ≤ b.toNat ∧ b.toNat ≤ 0xDF) :
    next b [] = (.cut, []) ∧
    ∀ c rest, isContinuation c = true →
      next b (c :: rest) = (.char (codePoint (b.toNat - 0xC0) [c]), rest) := by
  have h1 : ¬ b < 0x80 := not_ascii (by omega)
  have h2 := (lead_within (b := b) 0xC2 0xDF).2 h
  refine ⟨?_, fun c rest hc => ?_⟩
  · unfold next; rw [if_neg h1, if_pos h2]
  · unfold next; rw [if_neg h1, if_pos h2]; simp only [hc, if_true]

theorem next_three (h : 0xE0 ≤ b.toNat ∧ b.toNat ≤ 0xEF) :
    next b [] = (.cut, []) ∧
    ∀ c, isSecond b c = true → next b [c] = (.cut, []) ∧
      ∀ d rest, isContinuation d = true →
        next b (c :: d :: rest) = (.char (codePoint (b.toNat - 0xE0) [c, d]), rest) := by
  have h1 : ¬ b < 0x80 := not_ascii (by omega)
  have h2 : ¬ (decide (0xC2 ≤ b) && decide (b ≤ 0xDF)) = true := by
    rw [lead_within]
    have : (0xDF : UInt8).toNat = 0xDF := rfl
    omega
  have h3 := (lead_within (b := b) 0xE0 0xEF).2 h
  refine ⟨?_, fun c hc => ⟨?_, fun d rest hd => ?_⟩⟩
  · unfold next; rw [if_neg h1, if_neg h2, if_pos h3]
  · unfold next; rw [if_neg h1, if_neg h2, if_pos h3]; simp only [hc, if_true]
  · unfold next; rw [if_neg h1, if_neg h2, if_pos h3]; simp only [hc, hd, if_true]

theorem next_four (h : 0xF0 ≤ b.toNat ∧ b.toNat ≤ 0xF4) :
    next b [] = (.cut, []) ∧
    ∀ c, isSecond b c = true → next b [c] = (.cut, []) ∧
      ∀ d, isContinuation d = true → next b [c, d] = (.cut, []) ∧
        ∀ e rest, isContinuation e = true →
          next b (c :: d :: e :: rest) = (.char (codePoint (b.toNat - 0xF0) [c, d, e]), rest) := by
  have h1 : ¬ b < 0x80 := not_ascii (by omega)
  have h2 : ¬ (decide (0xC2 ≤ b) && decide (b ≤ 0xDF)) = true := by
    rw [lead_within]
    have : (0xDF : UInt8).toNat = 0xDF := rfl
    omega
  have h3 : ¬ (decide (0xE0 ≤ b) && decide (b ≤ 0xEF)) = true := by
    rw [lead_within]
    have : (0xEF : UInt8).toNat = 0xEF := rfl
    omega
  have h4 := (lead_within (b := b) 0xF0 0xF4).2 h
  refine ⟨?_, fun c hc => ⟨?_, fun d hd => ⟨?_, fun e rest he => ?_⟩⟩⟩
  · unfold next; rw [if_neg h1, if_neg h2, if_neg h3, if_pos h4]
  · unfold next; rw [if_neg h1, if_neg h2, if_neg h3, if_pos h4]; simp only [hc, if_true]
  · unfold next; rw [if_neg h1, if_neg h2, if_neg h3, if_pos h4]; simp only [hc, hd, if_true]
  · unfold next; rw [if_neg h1, if_neg h2, if_neg h3, if_pos h4]; simp only [hc, hd, he, if_true]

end Leads

/-! ## 3. The bytes of a character -/

/-- The reader of characters gives `c` for these bytes, and asks for more as long as
    some of them are missing. -/
structure Spells (c : Char) (bytes : Bytes) : Prop where
  whole : ∃ b bs, bytes = b :: bs ∧ ∀ rest, next b (bs ++ rest) = (.char c, rest)
  part : ∀ b p q, bytes = b :: p ++ q → q ≠ [] → next b p = (.cut, [])

theorem spells_one {c : Char} (h : c.toNat < 0x80) : Spells c [UInt8.ofNat c.toNat] := by
  have hlead := toNat_byte (show c.toNat < 256 by omega)
  constructor
  · refine ⟨_, _, rfl, fun rest => ?_⟩
    rw [next_ascii (by rw [hlead]; exact h), hlead, Char.ofNat_toNat]
    rfl
  · intro b p q hsplit hq
    match p, hsplit with
    | [], hsplit => exact absurd (List.cons.inj hsplit).2.symm hq

theorem spells_two {c : Char} (hlo : 0x80 ≤ c.toNat) (hhi : c.toNat < 0x800) :
    Spells c [UInt8.ofNat (c.toNat / 64 + 0xC0), UInt8.ofNat (c.toNat % 64 + 0x80)] := by
  have hlead := toNat_byte (show c.toNat / 64 + 0xC0 < 256 by omega)
  have hlast := toNat_byte (show c.toNat % 64 + 0x80 < 256 by omega)
  obtain ⟨hnone, hsome⟩ := next_two (b := UInt8.ofNat (c.toNat / 64 + 0xC0)) (by rw [hlead]; omega)
  constructor
  · refine ⟨_, _, rfl, fun rest => ?_⟩
    rw [List.singleton_append, hsome _ _ (isContinuation_byte _), hlead]
    simp only [codePoint, List.foldl_cons, List.foldl_nil, hlast, Nat.add_sub_cancel]
    rw [Nat.div_add_mod', Char.ofNat_toNat]
  · intro b p q hsplit hq
    match p, hsplit with
    | [], hsplit => cases hsplit; exact hnone
    | [_], hsplit => simp at hsplit; exact absurd hsplit.2.2 hq

theorem spells_three {c : Char} (hlo : 0x800 ≤ c.toNat) (hhi : c.toNat < 0x10000) :
    Spells c [UInt8.ofNat (c.toNat / 4096 + 0xE0), UInt8.ofNat (c.toNat / 64 % 64 + 0x80),
      UInt8.ofNat (c.toNat % 64 + 0x80)] := by
  have hrange := char_range c
  have hlead := toNat_byte (show c.toNat / 4096 + 0xE0 < 256 by omega)
  have hmid := toNat_byte (show c.toNat / 64 % 64 + 0x80 < 256 by omega)
  have hlast := toNat_byte (show c.toNat % 64 + 0x80 < 256 by omega)
  obtain ⟨hnone, hstart⟩ :=
    next_three (b := UInt8.ofNat (c.toNat / 4096 + 0xE0)) (by rw [hlead]; omega)
  -- after `E0` the form is not overlong, after `ED` it is no surrogate
  obtain ⟨hcut, hsome⟩ := hstart (UInt8.ofNat (c.toNat / 64 % 64 + 0x80)) (by
    rw [isSecond_iff, hlead, hmid]
    constructor
    all_goals repeat' split
    all_goals omega)
  constructor
  · refine ⟨_, _, rfl, fun rest => ?_⟩
    rw [List.cons_append, List.singleton_append, hsome _ _ (isContinuation_byte _), hlead]
    simp only [codePoint, List.foldl_cons, List.foldl_nil, hmid, hlast, Nat.add_sub_cancel]
    rw [show (c.toNat / 4096 * 64 + c.toNat / 64 % 64) * 64 + c.toNat % 64 = c.toNat by omega,
      Char.ofNat_toNat]
  · intro b p q hsplit hq
    match p, hsplit with
    | [], hsplit => cases hsplit; exact hnone
    | [_], hsplit => cases hsplit; exact hcut
    | [_, _], hsplit => simp at hsplit; exact absurd hsplit.2.2.2 hq

theorem spells_four {c : Char} (hlo : 0x10000 ≤ c.toNat) :
    Spells c [UInt8.ofNat (c.toNat / 262144 + 0xF0), UInt8.ofNat (c.toNat / 4096 % 64 + 0x80),
      UInt8.ofNat (c.toNat / 64 % 64 + 0x80), UInt8.ofNat (c.toNat % 64 + 0x80)] := by
  have hrange := char_range c
  have hlead := toNat_byte (show c.toNat / 262144 + 0xF0 < 256 by omega)
  have hsecond := toNat_byte (show c.toNat / 4096 % 64 + 0x80 < 256 by omega)
  have hthird := toNat_byte (show c.toNat / 64 % 64 + 0x80 < 256 by omega)
  have hlast := toNat_byte (show c.toNat % 64 + 0x80 < 256 by omega)
  obtain ⟨hnone, hstart⟩ :=
    next_four (b := UInt8.ofNat (c.toNat / 262144 + 0xF0)) (by rw [hlead]; omega)
  -- after `F0` the form is not overlong, after `F4` it is a code point
  obtain ⟨hcut, hmore⟩ := hstart (UInt8.ofNat (c.toNat / 4096 % 64 + 0x80)) (by
    rw [isSecond_iff, hlead, hsecond]
    constructor
    all_goals repeat' split
    all_goals omega)
  obtain ⟨hcut', hsome⟩ := hmore _ (isContinuation_byte (c.toNat / 64))
  constructor
  · refine ⟨_, _, rfl, fun rest => ?_⟩
    simp only [List.cons_append, List.nil_append]
    rw [hsome _ _ (isContinuation_byte _), hlead]
    simp only [codePoint, List.foldl_cons, List.foldl_nil, hsecond, hthird, hlast,
      Nat.add_sub_cancel]
    rw [show ((c.toNat / 262144 * 64 + c.toNat / 4096 % 64) * 64 + c.toNat / 64 % 64) * 64 +
      c.toNat % 64 = c.toNat by omega, Char.ofNat_toNat]
  · intro b p q hsplit hq
    match p, hsplit with
    | [], hsplit => cases hsplit; exact hnone
    | [_], hsplit => cases hsplit; exact hcut
    | [_, _], hsplit => cases hsplit; exact hcut'
    | [_, _, _], hsplit => simp at hsplit; exact absurd hsplit.2.2.2.2 hq

/-- **Reading undoes encoding**, and a character is only complete with its last byte. -/
theorem spells_encodeChar (c : Char) : Spells c (String.utf8EncodeChar c) := by
  have hrange := char_range c
  change Spells c (if c.toNat ≤ 0x7f then _ else if c.toNat ≤ 0x7ff then _ else
    if c.toNat ≤ 0xffff then _ else _)
  split
  · exact spells_one (by omega)
  · split
    · have h := spells_two (c := c) (by omega) (by omega)
      rwa [← Nat.mod_eq_of_lt (show c.toNat / 64 < 0x20 by omega)] at h
    · split
      · have h := spells_three (c := c) (by omega) (by omega)
        rwa [← Nat.mod_eq_of_lt (show c.toNat / 4096 < 0x10 by omega)] at h
      · have h := spells_four (c := c) (by omega)
        rwa [← Nat.mod_eq_of_lt (show c.toNat / 262144 < 0x08 by omega)] at h

/-! ## 4. Texts -/

/-- The bytes of characters. -/
def encodeChars (cs : List Char) : Bytes := cs.flatMap String.utf8EncodeChar

theorem encode_eq (s : String) : encode s = encodeChars s.toList := rfl

@[simp] theorem encodeChars_nil : encodeChars [] = [] := rfl

@[simp] theorem encodeChars_cons (c : Char) (cs : List Char) :
    encodeChars (c :: cs) = String.utf8EncodeChar c ++ encodeChars cs := rfl

@[simp] theorem encodeChars_append (as bs : List Char) :
    encodeChars (as ++ bs) = encodeChars as ++ encodeChars bs := by
  simp [encodeChars]

theorem decodeLossy_of_char {b : UInt8} {rest r : Bytes} {c : Char}
    (h : next b rest = (.char c, r)) : decodeLossy (b :: rest) = c :: decodeLossy r := by
  rw [decodeLossy]
  split
  · next h' => rw [h] at h'; cases h'; rfl
  · next hne h' => rw [h] at h'; cases h'; exact absurd rfl (hne c)

theorem incompleteTail_of_char {b : UInt8} {rest r : Bytes} {c : Char}
    (h : next b rest = (.char c, r)) : incompleteTail (b :: rest) = incompleteTail r := by
  rw [incompleteTail]
  split
  · next h' => rw [h] at h'; cases h'; rfl
  · next h' => rw [h] at h'; cases h'
  · next h' => rw [h] at h'; cases h'

theorem incompleteTail_of_cut {b : UInt8} {rest r : Bytes} (h : next b rest = (.cut, r)) :
    incompleteTail (b :: rest) = b :: rest := by
  rw [incompleteTail]
  split
  · next h' => rw [h] at h'; cases h'
  · next h' => rw [h] at h'; cases h'
  · rfl

/-- Decoding reads the characters in front of anything. -/
theorem decodeLossy_encodeChars_append (cs : List Char) (rest : Bytes) :
    decodeLossy (encodeChars cs ++ rest) = cs ++ decodeLossy rest := by
  induction cs with
  | nil => rfl
  | cons c cs ih =>
    obtain ⟨b, bs, hbytes, hnext⟩ := (spells_encodeChar c).whole
    rw [encodeChars_cons, hbytes, List.cons_append, List.cons_append, List.append_assoc,
      decodeLossy_of_char (hnext _), ih]
    rfl

theorem decodeLossy_encodeChars (cs : List Char) : decodeLossy (encodeChars cs) = cs := by
  have h := decodeLossy_encodeChars_append cs []
  rwa [List.append_nil, decodeLossy, List.append_nil] at h

theorem decodeChars?_of_char {b : UInt8} {rest r : Bytes} {c : Char}
    (h : next b rest = (.char c, r)) :
    decodeChars? (b :: rest) = (decodeChars? r).map (c :: ·) := by
  rw [decodeChars?]
  split
  · next h' => rw [h] at h'; cases h'; rfl
  · next hne => exact absurd h (hne c r)

theorem decodeChars?_encodeChars (cs : List Char) : decodeChars? (encodeChars cs) = some cs := by
  induction cs with
  | nil => rw [encodeChars_nil, decodeChars?]
  | cons c cs ih =>
    obtain ⟨b, bs, hbytes, hnext⟩ := (spells_encodeChar c).whole
    rw [encodeChars_cons, hbytes, List.cons_append, decodeChars?_of_char (hnext _), ih]
    rfl

/-- Every text is well formed once it is encoded. -/
theorem decode?_encode (s : String) : decode? (encode s) = some s := by
  rw [decode?, encode_eq, decodeChars?_encodeChars]
  exact congrArg some (String.ofList_toList)

/-- Whole characters are never held back. -/
theorem incompleteTail_encodeChars_append (cs : List Char) (rest : Bytes) :
    incompleteTail (encodeChars cs ++ rest) = incompleteTail rest := by
  induction cs with
  | nil => rfl
  | cons c cs ih =>
    obtain ⟨b, bs, hbytes, hnext⟩ := (spells_encodeChar c).whole
    rw [encodeChars_cons, hbytes, List.cons_append, List.cons_append, List.append_assoc,
      incompleteTail_of_char (hnext _), ih]

/-- A text cut anywhere is some whole characters and the tail that is held back. -/
theorem split_of_prefix {p : Bytes} {cs : List Char} (h : p <+: encodeChars cs) :
    ∃ front back, cs = front ++ back ∧ p = encodeChars front ++ incompleteTail p := by
  induction cs generalizing p with
  | nil =>
    rw [List.prefix_nil.1 h]
    exact ⟨[], [], rfl, by rw [incompleteTail]; rfl⟩
  | cons c cs ih =>
    rcases List.prefix_or_prefix_of_prefix h (List.prefix_append _ _) with hp | hp
    · -- the cut lies inside the first character, or at one of its ends
      obtain ⟨q, hq⟩ := hp
      cases p with
      | nil => exact ⟨[], c :: cs, rfl, by rw [incompleteTail]; rfl⟩
      | cons b p =>
        by_cases hend : q = []
        · refine ⟨[c], cs, rfl, ?_⟩
          rw [hend, List.append_nil] at hq
          have htail := incompleteTail_encodeChars_append [c] []
          rw [encodeChars_cons, encodeChars_nil, List.append_nil, List.append_nil] at htail
          rw [encodeChars_cons, encodeChars_nil, List.append_nil, hq, htail, incompleteTail,
            List.append_nil]
        · refine ⟨[], c :: cs, rfl, ?_⟩
          rw [incompleteTail_of_cut ((spells_encodeChar c).part b p q hq.symm hend)]
          rfl
    · -- the first character is whole
      obtain ⟨p, rfl⟩ := hp
      obtain ⟨front, back, rfl, hp⟩ := ih ((List.prefix_append_right_inj _).1 h)
      refine ⟨c :: front, back, rfl, ?_⟩
      have htail := incompleteTail_encodeChars_append [c] p
      rw [encodeChars_cons, encodeChars_nil, List.append_nil] at htail
      rw [encodeChars_cons, List.append_assoc, htail, ← hp]

end TerraformCloud.Utf8
