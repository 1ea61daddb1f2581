/-
  TerraformCloud/Proofs/Text/Order.lean
  =====================================
  **The order of texts is the order of their bytes.**

  Maps keep their keys in the order of texts, character by character.  Other programs
  order keys by their bytes.  Both say the same, because the first byte in which two
  characters differ is greater in the greater character (`encodeChar_lt`).
-/
import TerraformCloud.Proofs.Text.Utf8

namespace TerraformCloud.Utf8

theorem byte_lt_byte {m n : Nat} (hm : m < 256) (hn : n < 256) :
    UInt8.ofNat m < UInt8.ofNat n ↔ m < n := by
  rw [UInt8.lt_iff_toNat_lt, toNat_byte hm, toNat_byte hn]

theorem byte_eq_byte {m n : Nat} (hm : m < 256) (hn : n < 256) :
    UInt8.ofNat m = UInt8.ofNat n ↔ m = n := by
  rw [← UInt8.toNat_inj, toNat_byte hm, toNat_byte hn]

/-- The bytes of a character, by its size. -/
theorem utf8EncodeChar_cases (c : Char) :
    (c.toNat < 0x80 ∧ String.utf8EncodeChar c = [UInt8.ofNat c.toNat]) ∨
    (0x80 ≤ c.toNat ∧ c.toNat < 0x800 ∧ String.utf8EncodeChar c =
      [UInt8.ofNat (c.toNat / 64 + 0xC0), UInt8.ofNat (c.toNat % 64 + 0x80)]) ∨
    (0x800 ≤ c.toNat ∧ c.toNat < 0x10000 ∧ String.utf8EncodeChar c =
      [UInt8.ofNat (c.toNat / 4096 + 0xE0), UInt8.ofNat (c.toNat / 64 % 64 + 0x80),
        UInt8.ofNat (c.toNat % 64 + 0x80)]) ∨
    (0x10000 ≤ c.toNat ∧ c.toNat < 0x110000 ∧ String.utf8EncodeChar c =
      [UInt8.ofNat (c.toNat / 262144 + 0xF0), UInt8.ofNat (c.toNat / 4096 % 64 + 0x80),
        UInt8.ofNat (c.toNat / 64 % 64 + 0x80), UInt8.ofNat (c.toNat % 64 + 0x80)]) := by
  have hrange := char_range c
  have hform : String.utf8EncodeChar c = if c.toNat ≤ 0x7f then _ else if c.toNat ≤ 0x7ff then _ else
    if c.toNat ≤ 0xffff then _ else _ := rfl
  rw [hform]
  split
  · exact .inl ⟨by omega, rfl⟩
  · split
    · refine .inr (.inl ⟨by omega, by omega, ?_⟩)
      rw [← Nat.mod_eq_of_lt (show c.toNat / 64 < 0x20 by omega)]
      rfl
    · split
      · refine .inr (.inr (.inl ⟨by omega, by omega, ?_⟩))
        rw [← Nat.mod_eq_of_lt (show c.toNat / 4096 < 0x10 by omega)]
        rfl
      · refine .inr (.inr (.inr ⟨by omega, by omega, ?_⟩))
        rw [← Nat.mod_eq_of_lt (show c.toNat / 262144 < 0x08 by omega)]
        rfl

/-- A byte of a character is the character, or none of ASCII. -/
theorem mem_utf8EncodeChar {c : Char} {b : UInt8} (h : b ∈ String.utf8EncodeChar c) :
    b.toNat = c.toNat ∨ 0x80 ≤ b.toNat := by
  have hhigh : ∀ {n : Nat}, 0x80 ≤ n → n < 256 → 0x80 ≤ (UInt8.ofNat n).toNat := by
    intro n hlo hhi
    rw [toNat_byte hhi]
    exact hlo
  rcases utf8EncodeChar_cases c with ⟨_, hc⟩ | ⟨_, _, hc⟩ | ⟨_, _, hc⟩ | ⟨_, _, hc⟩
  · rw [hc, List.mem_singleton] at h
    rw [h, toNat_byte (by omega)]
    exact .inl rfl
  all_goals
    simp only [hc, List.mem_cons, List.not_mem_nil, or_false] at h
    right
  · rcases h with rfl | rfl <;> exact hhigh (by omega) (by omega)
  · rcases h with rfl | rfl | rfl <;> exact hhigh (by omega) (by omega)
  · rcases h with rfl | rfl | rfl | rfl <;> exact hhigh (by omega) (by omega)

/-- The bytes of the greater character are greater, whatever follows. -/
theorem encodeChar_lt {c d : Char} (h : c.toNat < d.toNat) (x y : Bytes) :
    String.utf8EncodeChar c ++ x < String.utf8EncodeChar d ++ y := by
  rcases utf8EncodeChar_cases c with ⟨_, hc⟩ | ⟨_, _, hc⟩ | ⟨_, _, hc⟩ | ⟨_, _, hc⟩
  all_goals
    rcases utf8EncodeChar_cases d with ⟨_, hd⟩ | ⟨_, _, hd⟩ | ⟨_, _, hd⟩ | ⟨_, _, hd⟩
  all_goals
    rw [hc, hd]
    simp (disch := omega) only [List.cons_append, List.nil_append, List.cons_lt_cons_iff,
      byte_lt_byte, byte_eq_byte]
    omega

theorem encodeChars_lt {cs ds : List Char} (h : cs < ds) : encodeChars cs < encodeChars ds := by
  induction cs generalizing ds with
  | nil =>
    cases ds with
    | nil => exact absurd h (List.lt_irrefl _)
    | cons d ds =>
      obtain ⟨b, bs, hbytes, -⟩ := (spells_encodeChar d).whole
      rw [encodeChars_cons, hbytes]
      exact List.nil_lt_cons _ _
  | cons c cs ih =>
    cases ds with
    | nil => exact absurd h (List.not_lt_nil _)
    | cons d ds =>
      rcases List.cons_lt_cons_iff.1 h with hlt | ⟨rfl, hlt⟩
      · exact encodeChar_lt hlt _ _
      · rw [encodeChars_cons, encodeChars_cons]
        exact List.append_left_lt (ih hlt)

/-- **Texts are ordered as their bytes are.** -/
theorem encode_lt_encode_iff (s t : String) : encode s < encode t ↔ s < t := by
  constructor
  · intro h
    rcases Decidable.em (s < t) with hlt | hge
    · exact hlt
    · rcases Decidable.em (t < s) with hlt | hge'
      · exact absurd h (List.lt_asymm (encodeChars_lt hlt))
      · rw [String.le_antisymm (String.not_lt.1 hge') (String.not_lt.1 hge)] at h
        exact absurd h (List.lt_irrefl _)
  · intro h
    exact encodeChars_lt h

end TerraformCloud.Utf8
