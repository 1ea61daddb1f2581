/-
  TerraformCloud/Proofs/Text/Digits.lean
  ======================================
  **Decimal digits say the number they were written for.**

  Numbers are written in documents, queries and points in time, and each reader has its
  own idea of where digits end.  What they share is here: the digits of a number are
  digits (`isDigit_of_mem`), they spell the number also behind zeros
  (`natOfDigits_zeros_append`), and only zero begins with a zero (`head_toDigits`).
-/
import TerraformCloud.Number.DecimalText
import TerraformCloud.Proofs.Url.Identifier

namespace TerraformCloud

/-! ## 1. Digits of a number -/

theorem isDigit_of_mem {n : Nat} {c : Char} (h : c ∈ Nat.toDigits 10 n) : c.isDigit = true :=
  Nat.isDigit_of_mem_toDigits (by decide) (by decide) h

theorem toDigits_ne_nil (n : Nat) : Nat.toDigits 10 n ≠ [] :=
  List.ne_nil_of_length_pos Nat.length_toDigits_pos

@[simp] theorem natOfDigits_toDigits (n : Nat) : natOfDigits (Nat.toDigits 10 n) = n :=
  Nat.ofDigitChars_toDigits (by decide) (by decide)

/-- Zeros in front change nothing. -/
theorem natOfDigits_zeros_append (k : Nat) (digits : List Char) :
    natOfDigits (List.replicate k '0' ++ digits) = natOfDigits digits := by
  induction k with
  | zero => rfl
  | succ k ih =>
    rw [List.replicate_succ, List.cons_append]
    exact ih

@[simp] theorem natOfDigits?_toDigits (n : Nat) : natOfDigits? (Nat.toDigits 10 n) = some n := by
  have hall : (Nat.toDigits 10 n).all Char.isDigit = true :=
    List.all_eq_true.2 fun c hc => isDigit_of_mem hc
  have hempty : (Nat.toDigits 10 n).isEmpty = false := by
    rw [List.isEmpty_eq_false_iff]
    exact toDigits_ne_nil n
  rw [natOfDigits?, hempty, hall, natOfDigits_toDigits]
  rfl

/-- Only zero begins with a zero. -/
theorem head_toDigits {n : Nat} (h : (Nat.toDigits 10 n).head? = some '0') : n = 0 := by
  induction n using Nat.strongRecOn with
  | ind n ih =>
    rw [Nat.toDigits_eq_if (by decide)] at h
    split at h
    · next hlt =>
      have hall : ∀ m : Fin 10, m.val.digitChar = '0' → m.val = 0 := by decide
      exact hall ⟨n, hlt⟩ (by simpa using h)
    · next hge =>
      rw [List.head?_append_of_ne_nil _ (toDigits_ne_nil _)] at h
      have hzero := ih (n / 10) (by omega) h
      omega

/-! ## 2. Their bytes -/

theorem digit_range {c : Char} (h : c.isDigit = true) : 0x30 ≤ c.toNat ∧ c.toNat ≤ 0x39 := by
  simp only [Char.isDigit, Bool.and_eq_true, decide_eq_true_eq, UInt32.le_iff_toNat_le, ge_iff_le] at h
  exact h

theorem toNat_asciiByte {c : Char} (h : c.toNat < 0x80) : (asciiByte c).toNat = c.toNat :=
  Utf8.toNat_byte (by omega)

theorem isDigitByte_iff (b : UInt8) : isDigitByte b = true ↔ 0x30 ≤ b.toNat ∧ b.toNat ≤ 0x39 := by
  simp [isDigitByte, UInt8.le_iff_toNat_le]

theorem isDigitByte_asciiByte {c : Char} (h : c.isDigit = true) : isDigitByte (asciiByte c) = true := by
  obtain ⟨hlo, hhi⟩ := digit_range h
  rw [isDigitByte_iff, toNat_asciiByte (by omega)]
  exact ⟨hlo, hhi⟩

/-- ASCII characters are written as one byte each. -/
theorem encodeChars_of_ascii {cs : List Char} (h : ∀ c ∈ cs, c.toNat < 0x80) :
    Utf8.encodeChars cs = cs.map asciiByte := by
  induction cs with
  | nil => rfl
  | cons c cs ih =>
    rw [Utf8.encodeChars_cons, utf8EncodeChar_of_ascii (h c List.mem_cons_self),
      ih fun d hd => h d (List.mem_cons_of_mem _ hd)]
    rfl

theorem encodeChars_digits {cs : List Char} (h : ∀ c ∈ cs, c.isDigit = true) :
    Utf8.encodeChars cs = cs.map asciiByte := by
  refine encodeChars_of_ascii fun c hc => ?_
  have hrange := digit_range (h c hc)
  omega

end TerraformCloud
