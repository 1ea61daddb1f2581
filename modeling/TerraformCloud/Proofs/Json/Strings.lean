/-
  TerraformCloud/Proofs/Json/Strings.lean
  =======================================
  **A written string is read as itself.**

  A reader first looks for the closing quote and then undoes the escapes.  Each
  character is written so that both pass over it as a whole (`Stands`): the first takes
  its bytes along without ending, the second turns them into the character.  A text is
  one character after the other, so it is delimited where it ends (`delimit?_quoted`)
  and reads as itself (`text?_escaped`).
-/
import TerraformCloud.Proofs.Text.Digits
import TerraformCloud.Proofs.Text.Order

namespace TerraformCloud.Json

/-! ## 1. Single steps -/

theorem delimit?_quote (rest : Bytes) : delimit? (quote :: rest) = some ([], rest) :=
  delimit?.eq_2 rest

theorem delimit?_plain {b : UInt8} (hquote : b ≠ quote) (hback : b ≠ backslash) (hctrl : ¬ b < 0x20)
    (rest : Bytes) : delimit? (b :: rest) = (delimit? rest).map fun (s, r) => (b :: s, r) := by
  rw [delimit?, if_neg hctrl]
  · exact hquote
  · intro _ _ _ _ _ h
    exact absurd h hback
  · intro _ _ h
    exact absurd h hback

theorem delimit?_escape {e : UInt8} (h : (escape? e).isSome = true) (rest : Bytes) :
    delimit? (backslash :: e :: rest) =
      (delimit? rest).map fun (s, r) => (backslash :: e :: s, r) := by
  have hne : e ≠ letterU := by
    rintro rfl
    cases h
  refine (delimit?.eq_4 e rest ?_).trans (if_pos h)
  intro _ _ _ _ _ heq
  exact absurd heq hne

theorem delimit?_unicode {p q r s : UInt8} (h : (hex4? p q r s).isSome = true) (rest : Bytes) :
    delimit? (backslash :: letterU :: p :: q :: r :: s :: rest) =
      (delimit? rest).map fun (t, rest') =>
        (backslash :: letterU :: p :: q :: r :: s :: t, rest') :=
  (delimit?.eq_3 p q r s rest).trans (if_pos h)

theorem unescape?_plain {b : UInt8} {rest r : Bytes} {c : Char} (hback : b ≠ backslash)
    (h : Utf8.next b rest = (.char c, r)) : unescape? (b :: rest) = (unescape? r).map (c :: ·) := by
  rw [unescape?.eq_def]
  dsimp only
  rw [if_neg hback]
  split
  · next h' => rw [h] at h'; cases h'; rfl
  · next hne => exact absurd h (hne c r)

theorem unescape?_escape {e : UInt8} {c : Char} (h : escape? e = some c) (rest : Bytes) :
    unescape? (backslash :: e :: rest) = (unescape? rest).map (c :: ·) := by
  have hne : e ≠ letterU := by
    rintro rfl
    cases h
  rw [unescape?.eq_def]
  dsimp only
  rw [if_pos rfl]
  split
  · next heq => exact absurd (List.cons.inj heq).1 hne
  · next heq =>
    cases heq
    rw [h]
  · next heq => cases heq

theorem unescape?_unicode {p q r s : UInt8} {n : Nat} (h : hex4? p q r s = some n)
    (hn : n < 0x20) (rest : Bytes) :
    unescape? (backslash :: letterU :: p :: q :: r :: s :: rest) =
      (unescape? rest).map (Char.ofNat n :: ·) := by
  have hhigh : ¬ isHighSurrogate n = true := by
    simp [isHighSurrogate]
    omega
  have hlow : ¬ isLowSurrogate n = true := by
    simp [isLowSurrogate]
    omega
  refine (unescape?.eq_2 backslash p q r s rest).trans ?_
  rw [if_pos rfl, h]
  dsimp only
  rw [if_neg hhigh, if_neg hlow]

/-! ## 2. Characters -/

/-- These bytes are passed over as a whole, and say the character. -/
structure Stands (bytes : Bytes) (c : Char) : Prop where
  delimited : ∀ rest, delimit? (bytes ++ rest) = (delimit? rest).map fun (s, r) => (bytes ++ s, r)
  read : ∀ rest, unescape? (bytes ++ rest) = (unescape? rest).map (c :: ·)

theorem delimit?_append_of_plain {bytes : Bytes}
    (h : ∀ b ∈ bytes, b ≠ quote ∧ b ≠ backslash ∧ ¬ b < 0x20) (rest : Bytes) :
    delimit? (bytes ++ rest) = (delimit? rest).map fun (s, r) => (bytes ++ s, r) := by
  induction bytes with
  | nil => simp
  | cons b bytes ih =>
    obtain ⟨hquote, hback, hctrl⟩ := h b List.mem_cons_self
    rw [List.cons_append, delimit?_plain hquote hback hctrl,
      ih fun d hd => h d (List.mem_cons_of_mem _ hd), Option.map_map]
    rfl

theorem stands_plain {c : Char} (hquote : c ≠ '"') (hback : c ≠ '\\') (hctrl : ¬ c.toNat < 0x20) :
    Stands (String.utf8EncodeChar c) c := by
  have hne : ∀ {d : Char}, c ≠ d → c.toNat ≠ d.toNat := by
    intro d h heq
    exact h (Char.toNat_inj.1 heq)
  have hplain : ∀ b ∈ String.utf8EncodeChar c, b ≠ quote ∧ b ≠ backslash ∧ ¬ b < 0x20 := by
    intro b hb
    have hbyte := Utf8.mem_utf8EncodeChar hb
    have hquote' : c.toNat ≠ 0x22 := hne hquote
    have hback' : c.toNat ≠ 0x5C := hne hback
    refine ⟨?_, ?_, ?_⟩
    · rintro rfl
      have : quote.toNat = 0x22 := rfl
      omega
    · rintro rfl
      have : backslash.toNat = 0x5C := rfl
      omega
    · rw [UInt8.lt_iff_toNat_lt]
      have : (0x20 : UInt8).toNat = 0x20 := rfl
      omega
  constructor
  · exact delimit?_append_of_plain hplain
  · intro rest
    obtain ⟨b, bs, hbytes, hnext⟩ := (Utf8.spells_encodeChar c).whole
    rw [hbytes, List.cons_append]
    exact unescape?_plain (hplain b (hbytes ▸ List.mem_cons_self)).2.1 (hnext rest)

theorem stands_escape {e : UInt8} {c : Char} (h : escape? e = some c) : Stands [backslash, e] c := by
  constructor
  · intro rest
    exact delimit?_escape (by rw [h]; rfl) rest
  · exact unescape?_escape h

theorem stands_unicode {p q r s : UInt8} {n : Nat} (h : hex4? p q r s = some n) (hn : n < 0x20) :
    Stands [backslash, letterU, p, q, r, s] (Char.ofNat n) := by
  constructor
  · intro rest
    exact delimit?_unicode (by rw [h]; rfl) rest
  · exact unescape?_unicode h hn

theorem hex4?_control : ∀ n : Fin 32,
    hex4? (asciiByte '0') (asciiByte '0') (asciiByte (lowerHex (n / 16)))
      (asciiByte (lowerHex (n % 16))) = some n.val ∧
    Utf8.encodeChars ['\\', 'u', '0', '0', lowerHex (n / 16), lowerHex (n % 16)] =
      [backslash, letterU, asciiByte '0', asciiByte '0', asciiByte (lowerHex (n / 16)),
        asciiByte (lowerHex (n % 16))] := by
  decide

/-- **Every character is written so that it reads as itself.** -/
theorem stands_escapeChar (c : Char) : Stands (Utf8.encodeChars (escapeChar c)) c := by
  unfold escapeChar
  split
  · next h => subst h; exact stands_escape (by decide)
  split
  · next h => subst h; exact stands_escape (by decide)
  split
  · next h => subst h; exact stands_escape (by decide)
  split
  · next h => subst h; exact stands_escape (by decide)
  split
  · next h => subst h; exact stands_escape (by decide)
  split
  · next h => subst h; exact stands_escape (by decide)
  split
  · next h => subst h; exact stands_escape (by decide)
  split
  · next h =>
    obtain ⟨hhex, hbytes⟩ := hex4?_control ⟨c.toNat, h⟩
    have hstands := stands_unicode hhex h
    rw [Char.ofNat_toNat] at hstands
    rw [hbytes]
    exact hstands
  · next hquote hback _ _ _ _ _ hctrl =>
    rw [Utf8.encodeChars_cons, Utf8.encodeChars_nil, List.append_nil]
    exact stands_plain hquote hback hctrl

/-! ## 3. Texts -/

/-- The bytes inside the quotes of a written text. -/
def escaped (s : String) : Bytes := Utf8.encodeChars (s.toList.flatMap escapeChar)

theorem encodeChars_quoted (s : String) :
    Utf8.encodeChars (quoted s) = quote :: (escaped s ++ [quote]) := by
  rw [quoted, List.cons_append, Utf8.encodeChars_cons, Utf8.encodeChars_append]
  rfl

/-- A written text ends at its closing quote. -/
theorem delimit?_quoted (s : String) (rest : Bytes) :
    delimit? (escaped s ++ quote :: rest) = some (escaped s, rest) := by
  unfold escaped
  induction s.toList with
  | nil => exact delimit?_quote rest
  | cons c cs ih =>
    rw [List.flatMap_cons, Utf8.encodeChars_append, List.append_assoc,
      (stands_escapeChar c).delimited, ih]
    rfl

/-- **A written text reads as itself.** -/
theorem text?_escaped (s : String) : text? (escaped s) = some s := by
  have hchars : unescape? (escaped s) = some s.toList := by
    unfold escaped
    induction s.toList with
    | nil => rw [List.flatMap_nil, Utf8.encodeChars_nil, unescape?]
    | cons c cs ih =>
      rw [List.flatMap_cons, Utf8.encodeChars_append, (stands_escapeChar c).read, ih]
      rfl
  rw [text?, hchars]
  exact congrArg some String.ofList_toList

end TerraformCloud.Json
