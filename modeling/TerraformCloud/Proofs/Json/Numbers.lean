/-
  TerraformCloud/Proofs/Json/Numbers.lean
  =======================================
  **A written integer is read as itself.**

  A reader of numbers takes what belongs to a number and stops: a number inside a
  document is the number that stands alone, followed by the rest (`number?_append`).
  So it is enough to ask of a number whether its text, alone, reads as the number
  (`Number.ReadsBack`).  Every integer of a machine word does (`readsBack_integer`),
  and no other integer is ever read (`integer_range`).  A double is written with the
  fewest digits that tell it from its neighbours, but read with one rounding too many,
  so that not every double comes back.
-/
import TerraformCloud.Json.Parser
import TerraformCloud.Proofs.Json.Tree
import TerraformCloud.Proofs.Text.Digits

namespace TerraformCloud.Json

/-! ## 1. Where a number ends -/

/-- What may follow a value in a document that was written: the end, a new item or member,
    the end of a container, or a new line. -/
def Stops : Bytes → Prop
  | [] => True
  | b :: _ => b = comma ∨ b = closeBracket ∨ b = closeBrace ∨ b = 0x0A

/-- Nothing that follows a value belongs to a number. -/
theorem Stops.head {b : UInt8} {rest : Bytes} (h : Stops (b :: rest)) :
    isDigitByte b = false ∧ b ≠ minus ∧ b ≠ point ∧
      ¬ (b = asciiByte 'e' ∨ b = asciiByte 'E') ∧ b ≠ asciiByte '+' := by
  rcases h with rfl | rfl | rfl | rfl <;> decide

/-- What was read, with more behind it. -/
def followedBy {α : Type} (rest : Bytes) (found : Option (α × Bytes)) : Option (α × Bytes) :=
  found.map fun p => (p.1, p.2 ++ rest)

section Append

variable {rest : Bytes}

theorem digits?_append (h : Stops rest) (input : Bytes) :
    digits? (input ++ rest) = followedBy rest (digits? input) := by
  have hstop : rest.takeWhile isDigitByte = [] ∧ rest.dropWhile isDigitByte = rest := by
    cases rest with
    | nil => exact ⟨rfl, rfl⟩
    | cons b rest => simp [h.head.1]
  have htake : (input ++ rest).takeWhile isDigitByte = input.takeWhile isDigitByte := by
    rw [List.takeWhile_append, hstop.1]
    split
    · next hall => rw [List.append_nil, (List.takeWhile_prefix _).eq_of_length hall]
    · rfl
  have hdrop : (input ++ rest).dropWhile isDigitByte = input.dropWhile isDigitByte ++ rest := by
    rw [List.dropWhile_append, hstop.2]
    split
    · next hnil => rw [List.isEmpty_iff.1 hnil, List.nil_append]
    · rfl
  unfold digits?
  dsimp only
  rw [htake, hdrop]
  split <;> rfl

theorem map_digits?_append {α : Type} (h : Stops rest) (f : List Nat → α) (input : Bytes) :
    ((digits? (input ++ rest)).map fun p => (f p.1, p.2)) =
      followedBy rest ((digits? input).map fun p => (f p.1, p.2)) := by
  rw [digits?_append h, followedBy, followedBy, Option.map_map, Option.map_map]
  rfl

theorem places?_plain {input : Bytes} (h : ∀ r, input ≠ point :: r) :
    places? input = some (none, input) :=
  places?.eq_2 input h

theorem places?_append (h : Stops rest) (input : Bytes) :
    places? (input ++ rest) = followedBy rest (places? input) := by
  by_cases hpoint : ∃ r, input = point :: r
  · obtain ⟨r, rfl⟩ := hpoint
    exact map_digits?_append h some r
  · have hinput : ∀ r, input ≠ point :: r := fun r heq => hpoint ⟨r, heq⟩
    have happ : ∀ r, input ++ rest ≠ point :: r := by
      cases input with
      | nil =>
        rintro r rfl
        exact h.head.2.2.1 rfl
      | cons b input =>
        intro r heq
        exact hinput input (by rw [(List.cons.inj heq).1])
    rw [places?_plain hinput, places?_plain happ]
    rfl

theorem exponent?_append (h : Stops rest) (input : Bytes) :
    exponent? (input ++ rest) = followedBy rest (exponent? input) := by
  match input with
  | [] =>
    cases rest with
    | nil => rfl
    | cons b rest =>
      unfold exponent?
      simp [h.head.2.2.2.1, followedBy]
  | [e] =>
    cases rest with
    | nil =>
      rw [List.append_nil, followedBy]
      cases exponent? [e] <;> simp
    | cons b rest =>
      obtain ⟨-, hminus, -, -, hplus⟩ := h.head
      rw [List.singleton_append, exponent?.eq_2, exponent?.eq_3, if_neg hminus, if_neg hplus]
      split
      · exact map_digits?_append h (fun ds => some (false, ds)) []
      · rfl
  | e :: s :: input =>
    rw [List.cons_append, List.cons_append, exponent?.eq_2, exponent?.eq_2]
    split
    · by_cases hminus : s = minus
      · rw [if_pos hminus, if_pos hminus]
        exact map_digits?_append h (fun ds => some (true, ds)) input
      rw [if_neg hminus, if_neg hminus]
      by_cases hplus : s = asciiByte '+'
      · rw [if_pos hplus, if_pos hplus]
        exact map_digits?_append h (fun ds => some (false, ds)) input
      · rw [if_neg hplus, if_neg hplus]
        exact map_digits?_append h (fun ds => some (false, ds)) (s :: input)
    · rfl

/-- A number behind its sign. -/
def unsigned? (negative : Bool) (body : Bytes) : Option (NumberText × Bytes) :=
  match digits? body with
  | none => none
  | some (whole, r) =>
    if whole.head? = some 0 ∧ whole.length ≠ 1 then none
    else
      match places? r with
      | none => none
      | some (places, r') =>
        (exponent? r').map fun (exponent, r'') => (⟨negative, whole, places, exponent⟩, r'')

theorem number?_minus (body : Bytes) : number? (minus :: body) = unsigned? true body := rfl

theorem number?_plain {input : Bytes} (h : ∀ body, input ≠ minus :: body) :
    number? input = unsigned? false input :=
  number?.eq_2 input h

theorem unsigned?_append (h : Stops rest) (negative : Bool) (body : Bytes) :
    unsigned? negative (body ++ rest) = followedBy rest (unsigned? negative body) := by
  unfold unsigned?
  rw [digits?_append h]
  rcases digits? body with _ | ⟨whole, r⟩
  · rfl
  rw [followedBy, Option.map_some]
  dsimp only
  split
  · rfl
  rw [places?_append h]
  rcases places? r with _ | ⟨places, r'⟩
  · rfl
  rw [followedBy, Option.map_some]
  dsimp only
  rw [exponent?_append h, followedBy, followedBy, Option.map_map, Option.map_map]
  rfl

/-- **A number ends where nothing of it can follow.** -/
theorem number?_append (h : Stops rest) (input : Bytes) :
    number? (input ++ rest) = followedBy rest (number? input) := by
  by_cases hminus : ∃ body, input = minus :: body
  · obtain ⟨body, rfl⟩ := hminus
    exact unsigned?_append h true body
  · have hinput : ∀ body, input ≠ minus :: body := fun body heq => hminus ⟨body, heq⟩
    have happ : ∀ body, input ++ rest ≠ minus :: body := by
      cases input with
      | nil =>
        rintro body rfl
        exact h.head.2.1 rfl
      | cons b input =>
        intro body heq
        exact hinput input (by rw [(List.cons.inj heq).1])
    rw [number?_plain hinput, number?_plain happ]
    exact unsigned?_append h false input

end Append

/-- A number begins with a sign or a digit. -/
theorem number?_head {input : Bytes} {t : NumberText} {rest : Bytes}
    (h : number? input = some (t, rest)) :
    ∃ b body, input = b :: body ∧ (b = minus ∨ isDigitByte b = true) := by
  cases input with
  | nil => cases h
  | cons b body =>
    refine ⟨b, body, rfl, ?_⟩
    by_cases hminus : b = minus
    · exact .inl hminus
    · right
      rw [number?_plain fun r heq => hminus (List.cons.inj heq).1] at h
      by_contra hdigit
      rw [unsigned?, digits?] at h
      dsimp only at h
      rw [List.takeWhile_cons_of_neg hdigit] at h
      cases h

/-! ## 2. Numbers in a document -/

theorem dropWord?_of_ne (word : String) {first b : UInt8} {more : Bytes}
    (hword : Utf8.encode word = first :: more) (hne : b ≠ first) (body : Bytes) :
    dropWord? word (b :: body) = none := by
  rw [dropWord?, hword, List.length_cons, List.take_succ_cons]
  refine if_neg fun heq => ?_
  exact hne (List.cons.inj heq).1

theorem skipBlanks_cons {b : UInt8} (h : isBlank b = false) (body : Bytes) :
    skipBlanks (b :: body) = b :: body := by
  rw [skipBlanks, List.dropWhile_cons_of_neg (by rw [h]; exact Bool.false_ne_true)]

/-- A byte that begins a number begins nothing else. -/
theorem number_byte {b : UInt8} (h : b = minus ∨ isDigitByte b = true) :
    isBlank b = false ∧ b ≠ quote ∧ b ≠ openBracket ∧ b ≠ openBrace ∧
      b ≠ 0x6E ∧ b ≠ 0x74 ∧ b ≠ 0x66 := by
  have hrange : 0x2D ≤ b.toNat ∧ b.toNat ≤ 0x39 := by
    rcases h with rfl | h
    · decide
    · rw [isDigitByte_iff] at h
      omega
  simp only [isBlank, quote, openBracket, openBrace, Bool.or_eq_false_iff,
    decide_eq_false_iff_not, ← UInt8.toNat_inj, ne_eq,
    UInt8.reduceToNat]
  omega

theorem parseValue_number {input : Bytes} {t : NumberText} {rest : Bytes}
    (h : number? input = some (t, rest)) (fuel : Nat) :
    parseValue (fuel + 1) input = some (.number (Number.ofText? t), rest) := by
  obtain ⟨b, body, rfl, hb⟩ := number?_head h
  obtain ⟨hblank, hquote, hbracket, hbrace, hn, ht, hf⟩ := number_byte hb
  rw [parseValue, skipBlanks_cons hblank]
  split
  · next heq => exact absurd (List.cons.inj heq).1 hquote
  · next heq => exact absurd (List.cons.inj heq).1 hbracket
  · next heq => exact absurd (List.cons.inj heq).1 hbrace
  · rw [dropWord?_of_ne "null" rfl hn, dropWord?_of_ne "true" rfl ht,
      dropWord?_of_ne "false" rfl hf, h]
    rfl

/-- Blanks in front of a value do not matter. -/
theorem parseValue_skipBlanks (fuel : Nat) (input : Bytes) :
    parseValue fuel (skipBlanks input) = parseValue fuel input := by
  cases fuel with
  | zero => rw [parseValue, parseValue]
  | succ fuel => rw [parseValue, parseValue, skipBlanks, skipBlanks, List.dropWhile_idempotent]

/-- What a value is read from: nothing that has numbers, a number, items or members. -/
theorem parseValue_cases {fuel : Nat} {input : Bytes} {w : Written} {rest : Bytes}
    (h : parseValue fuel input = some (w, rest)) :
    w.numbers = [] ∨
    (∃ t, number? (skipBlanks input) = some (t, rest) ∧ w = .number (Number.ofText? t)) ∨
    (∃ f body items, fuel = f + 1 ∧ parseItems f body = some (items, rest) ∧ w = .array items) ∨
    (∃ f body members, fuel = f + 1 ∧ parseMembers f body = some (members, rest) ∧
      w = .object members) := by
  cases fuel with
  | zero =>
    rw [parseValue] at h
    cases h
  | succ fuel =>
    rw [parseValue] at h
    split at h
    · obtain ⟨_, _, heq⟩ := Option.map_eq_some_iff.1 h
      cases heq
      exact .inl rfl
    · split at h
      · cases h
        exact .inl rfl
      · obtain ⟨⟨items, r⟩, hitems, heq⟩ := Option.map_eq_some_iff.1 h
        cases heq
        exact .inr (.inr (.inl ⟨fuel, _, items, rfl, hitems, rfl⟩))
    · split at h
      · cases h
        exact .inl rfl
      · obtain ⟨⟨members, r⟩, hmembers, heq⟩ := Option.map_eq_some_iff.1 h
        cases heq
        exact .inr (.inr (.inr ⟨fuel, _, members, rfl, hmembers, rfl⟩))
    · split at h
      · cases h
        exact .inl rfl
      · cases h
        exact .inl rfl
      · cases h
        exact .inl rfl
      · obtain ⟨⟨t, r⟩, hnumber, heq⟩ := Option.map_eq_some_iff.1 h
        cases heq
        exact .inr (.inl ⟨t, hnumber, rfl⟩)

/-- What is read as a number is spelled as one. -/
theorem number?_of_parseValue {fuel : Nat} {input : Bytes} {x : Option Number} {rest : Bytes}
    (h : parseValue fuel input = some (.number x, rest)) :
    ∃ t, number? (skipBlanks input) = some (t, rest) ∧ Number.ofText? t = x := by
  rcases parseValue_cases h with hnone | ⟨t, ht, heq⟩ | ⟨_, _, _, _, _, heq⟩ | ⟨_, _, _, _, _, heq⟩
  · cases hnone
  · cases heq
    exact ⟨t, ht, rfl⟩
  · cases heq
  · cases heq

/-- Parsing the text of the number gives the number. -/
def Number.ReadsBack (n : Number) : Prop :=
  parse? (Utf8.encode (Value.compact (.number n))) = some (.number (some n))

theorem encode_compact (v : Value) : Utf8.encode v.compact = Utf8.encodeChars v.compactChars := by
  rw [Utf8.encode_eq, Value.compact, String.toList_ofList]

theorem Number.readsBack_iff (n : Number) :
    n.ReadsBack ↔ ∃ t gap, number? (skipBlanks (Utf8.encodeChars n.text)) = some (t, gap) ∧
      ofText? t = some n ∧ skipBlanks gap = [] := by
  have htext : Value.compactChars (.number n) = n.text := by rw [Value.compactChars]
  rw [ReadsBack, encode_compact, htext, parse?, front?]
  constructor
  · intro h
    split at h
    · next heq =>
      split at h
      · next hgap =>
        cases h
        obtain ⟨t, hnumber, ht⟩ := number?_of_parseValue heq
        exact ⟨t, _, hnumber, ht, List.isEmpty_iff.1 hgap⟩
      · cases h
    · cases h
  · rintro ⟨t, gap, hnumber, ht, hgap⟩
    rw [← parseValue_skipBlanks, parseValue_number hnumber, ht]
    dsimp only
    rw [hgap]
    rfl

/-- A number that reads back does so in front of more; blanks may be left over. -/
theorem parseValue_of_readsBack {n : Number} (h : n.ReadsBack) {rest : Bytes} (hrest : Stops rest)
    (fuel : Nat) :
    ∃ gap, skipBlanks gap = [] ∧
      parseValue (fuel + 1) (Utf8.encodeChars n.text ++ rest) =
        some (.number (some n), gap ++ rest) := by
  obtain ⟨t, gap, hnumber, ht, hgap⟩ := (Number.readsBack_iff n).1 h
  obtain ⟨b, body, hbody, -⟩ := number?_head hnumber
  have hskip : skipBlanks (Utf8.encodeChars n.text ++ rest) =
      skipBlanks (Utf8.encodeChars n.text) ++ rest := by
    have hne : ¬ ((Utf8.encodeChars n.text).dropWhile isBlank).isEmpty = true := by
      rw [← skipBlanks, hbody]
      exact Bool.false_ne_true
    rw [skipBlanks, List.dropWhile_append, if_neg hne]
    rfl
  refine ⟨gap, hgap, ?_⟩
  have hread : number? (skipBlanks (Utf8.encodeChars n.text) ++ rest) = some (t, gap ++ rest) := by
    rw [number?_append hrest, hnumber]
    rfl
  rw [← parseValue_skipBlanks, hskip, parseValue_number hread, ht]

/-! ## 3. Integers -/

/-- Digits fit as long as their number does. -/
theorem absorb_eq {digits : List Nat} {significand : Nat}
    (h : digits.foldl (fun n d => n * 10 + d) significand < Number.wordLimit) :
    Number.absorb significand digits = (digits.foldl (fun n d => n * 10 + d) significand, 0) := by
  induction digits generalizing significand with
  | nil => rfl
  | cons d digits ih =>
    have hmono : ∀ (ds : List Nat) (n : Nat), n ≤ ds.foldl (fun n d => n * 10 + d) n := by
      intro ds
      induction ds with
      | nil => exact fun n => Nat.le_refl n
      | cons e ds ihd => exact fun n => Nat.le_trans (by omega) (ihd (n * 10 + e))
    have hlt : significand * 10 + d < Number.wordLimit := Nat.lt_of_le_of_lt (hmono digits _) h
    rw [Number.absorb, if_pos hlt]
    exact ih h

theorem foldl_digitValue (digits : List Char) :
    (digits.map digitValue).foldl (fun n d => n * 10 + d) 0 = natOfDigits digits := by
  rw [List.foldl_map, natOfDigits]
  refine congrArg (fun f => List.foldl f 0 digits) ?_
  funext n c
  omega

theorem absorb_toDigits {n : Nat} (h : n < Number.wordLimit) :
    Number.absorb 0 ((Nat.toDigits 10 n).map digitValue) = (n, 0) := by
  rw [absorb_eq] <;> rw [foldl_digitValue, natOfDigits_toDigits]
  exact h

theorem digitBytes_asciiByte {cs : List Char} (h : ∀ c ∈ cs, c.isDigit = true) :
    digitBytes (cs.map asciiByte) = cs.map digitValue := by
  rw [digitBytes, List.map_map]
  refine List.map_congr_left fun c hc => ?_
  have hrange := digit_range (h c hc)
  rw [Function.comp_apply, toNat_asciiByte (by omega)]
  rfl

theorem digits?_toDigits (n : Nat) :
    digits? (Utf8.encodeChars (Nat.toDigits 10 n)) =
      some ((Nat.toDigits 10 n).map digitValue, []) := by
  have hdigit : ∀ c ∈ Nat.toDigits 10 n, c.isDigit = true := fun c hc => isDigit_of_mem hc
  have hbyte : ∀ b ∈ (Nat.toDigits 10 n).map asciiByte, isDigitByte b = true := by
    intro b hb
    obtain ⟨c, hc, rfl⟩ := List.mem_map.1 hb
    exact isDigitByte_asciiByte (hdigit c hc)
  rw [encodeChars_digits hdigit, digits?, List.takeWhile_eq_self_iff.2 hbyte,
    List.dropWhile_eq_nil_iff.2 hbyte, if_neg (by simp),
    digitBytes_asciiByte hdigit]

/-- No number begins with a zero that says nothing. -/
theorem unsigned?_toDigits (negative : Bool) (n : Nat) :
    unsigned? negative (Utf8.encodeChars (Nat.toDigits 10 n)) =
      some (⟨negative, (Nat.toDigits 10 n).map digitValue, none, none⟩, []) := by
  have hlead : ¬ (((Nat.toDigits 10 n).map digitValue).head? = some 0 ∧
      ((Nat.toDigits 10 n).map digitValue).length ≠ 1) := by
    rintro ⟨hzero, hlength⟩
    obtain ⟨c, digits, hcons⟩ := List.exists_cons_of_ne_nil (toDigits_ne_nil n)
    have hdigit : c.isDigit = true := isDigit_of_mem (hcons ▸ List.mem_cons_self)
    have hc : c.toNat = '0'.toNat := by
      have hrange := digit_range hdigit
      have hvalue : c.toNat - 0x30 = 0 := by
        rw [hcons] at hzero
        exact Option.some.inj hzero
      exact Nat.le_antisymm (by change _ ≤ 0x30; omega) hrange.1
    have hn : n = 0 := head_toDigits (by rw [hcons, Char.toNat_inj.1 hc]; rfl)
    subst hn
    exact hlength rfl
  rw [unsigned?, digits?_toDigits]
  dsimp only
  rw [if_neg hlead, places?_plain (by intro r heq; cases heq)]
  rfl

namespace Number

/-- The integers that a machine word holds, with or without sign. -/
def FitsWord (n : Int) : Prop := -(2 ^ 63) ≤ n ∧ n < 2 ^ 64

/-- The parts of an integer's text. -/
def integerText (n : Int) : NumberText :=
  ⟨decide (n < 0), (Nat.toDigits 10 n.natAbs).map digitValue, none, none⟩

theorem number?_integer (n : Int) :
    number? (Utf8.encodeChars (text (.integer n))) = some (integerText n, []) := by
  rw [text]
  by_cases h : n < 0
  · have hsign : Utf8.encodeChars (['-'] ++ Nat.toDigits 10 n.natAbs) =
        minus :: Utf8.encodeChars (Nat.toDigits 10 n.natAbs) := rfl
    rw [if_pos h, hsign, number?_minus, unsigned?_toDigits, integerText, decide_eq_true h]
  · have hplain : ∀ body, Utf8.encodeChars (Nat.toDigits 10 n.natAbs) ≠ minus :: body := by
      intro body heq
      have hdigits := digits?_toDigits n.natAbs
      rw [heq] at hdigits
      cases hdigits
    rw [if_neg h, List.nil_append, number?_plain hplain, unsigned?_toDigits, integerText,
      decide_eq_false h]

theorem ofText?_integerText {n : Int} (h : FitsWord n) :
    ofText? (integerText n) = some (.integer n) := by
  obtain ⟨hlo, hhi⟩ := h
  have hfits : n.natAbs < wordLimit := by
    rw [wordLimit, UInt64.size]
    omega
  rw [ofText?, integerText, absorb_toDigits hfits]
  dsimp only
  by_cases hneg : n < 0
  · have hword : ¬ (n.natAbs = 0 ∨ Nat.pow 2 63 < n.natAbs) := by
      rw [show Nat.pow 2 63 = 2 ^ 63 from rfl]
      omega
    rw [if_neg (by simp), decide_eq_true hneg, if_neg (by simp), if_neg hword]
    congr 2
    omega
  · rw [if_neg (by simp), decide_eq_false hneg, if_pos (by simp)]
    congr 2
    omega

/-- **Every integer of a machine word is read as itself.** -/
theorem readsBack_integer {n : Int} (h : FitsWord n) : ReadsBack (.integer n) := by
  have hnumber := number?_integer n
  obtain ⟨b, body, hbody, hb⟩ := number?_head hnumber
  rw [readsBack_iff]
  refine ⟨integerText n, [], ?_, ofText?_integerText h, rfl⟩
  rw [hbody, skipBlanks_cons (number_byte hb).1, ← hbody, hnumber]

theorem absorb_lt {digits : List Nat} {significand : Nat} (h : significand < wordLimit) :
    (absorb significand digits).1 < wordLimit := by
  induction digits generalizing significand with
  | nil => exact h
  | cons d digits ih =>
    rw [absorb]
    split
    · next hlt => exact ih hlt
    · exact h

/-- **No other integer is ever read.** -/
theorem fitsWord_of_ofText? {t : NumberText} {n : Int} (h : ofText? t = some (.integer n)) :
    FitsWord n := by
  have hlt : (absorb 0 t.whole).1 < wordLimit := absorb_lt (by decide)
  unfold ofText? at h
  dsimp only at h
  rw [wordLimit, UInt64.size] at hlt
  split at h
  · split at h
    · obtain ⟨x, -, hx⟩ := Option.map_eq_some_iff.1 h
      cases hx
    split at h
    · cases h
      exact ⟨by omega, by omega⟩
    split at h
    · cases h
    · next hword =>
      rw [show Nat.pow 2 63 = 2 ^ 63 from rfl] at hword
      cases h
      exact ⟨by omega, by omega⟩
  · obtain ⟨x, -, hx⟩ := Option.map_eq_some_iff.1 h
    cases hx

end Number
end TerraformCloud.Json
