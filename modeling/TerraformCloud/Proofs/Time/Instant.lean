/-
  TerraformCloud/Proofs/Time/Instant.lean
  =======================================
  **A point in time is read as it was written.**

  A written instant is a row of numbers with marks between them.  Each number has a
  width of its own and is read up to it, except a year with a sign, which is read as far
  as its digits go.  So every part is read in front of whatever follows it
  (`number?_append`), and `ofText?_text` puts the parts together.
-/
import TerraformCloud.Proofs.Text.Digits
import TerraformCloud.Time.Instant

namespace TerraformCloud.Instant

/-! ## 1. Digits of fixed width -/

theorem isDigit_of_mem_padded {width n : Nat} {c : Char} (h : c ∈ padded width n) : c.isDigit = true := by
  rcases List.mem_append.1 h with h | h
  · rw [(List.mem_replicate.1 h).2]
    decide
  · exact isDigit_of_mem h

@[simp] theorem natOfDigits_padded (width n : Nat) : natOfDigits (padded width n) = n := by
  rw [padded, natOfDigits_zeros_append, natOfDigits_toDigits]

theorem padded_ne_nil (width n : Nat) : padded width n ≠ [] := by
  intro heq
  exact toDigits_ne_nil n (List.append_eq_nil_iff.1 heq).2

theorem length_padded {width n : Nat} (hpos : 0 < width) (h : n < 10 ^ width) :
    (padded width n).length = width := by
  have hdigits : (Nat.toDigits 10 n).length ≤ width :=
    (Nat.length_toDigits_le_iff (by decide) hpos).2 h
  rw [padded, List.length_append, List.length_replicate]
  omega

theorem isBlank_of_isDigit {c : Char} (h : c.isDigit = true) : isBlank c = false := by
  have hrange := digit_range h
  simp only [isBlank, Bool.or_eq_false_iff, Bool.and_eq_false_iff, decide_eq_false_iff_not]
  omega

/-- A row of digits begins with one. -/
theorem exists_digit_cons {digits : List Char} (hall : ∀ c ∈ digits, c.isDigit = true) (hne : digits ≠ []) :
    ∃ c more, digits = c :: more ∧ c.isDigit = true := by
  match digits with
  | [] => exact absurd rfl hne
  | c :: more => exact ⟨c, more, rfl, hall c List.mem_cons_self⟩

theorem trimFront_digits {digits rest : List Char} (hall : ∀ c ∈ digits, c.isDigit = true)
    (hne : digits ≠ []) : trimFront (digits ++ rest) = digits ++ rest := by
  obtain ⟨c, more, rfl, hc⟩ := exists_digit_cons hall hne
  exact List.dropWhile_cons_of_neg (by rw [isBlank_of_isDigit hc]; exact Bool.false_ne_true)

theorem takeWhile_digits {digits rest : List Char} (hall : ∀ c ∈ digits, c.isDigit = true)
    (hrest : ∀ c, rest.head? = some c → c.isDigit = false) :
    (digits ++ rest).takeWhile Char.isDigit = digits := by
  have hstop : rest.takeWhile Char.isDigit = [] := by
    match rest with
    | [] => rfl
    | c :: more => exact List.takeWhile_cons_of_neg (by rw [hrest c rfl]; exact Bool.false_ne_true)
  rw [List.takeWhile_append_of_pos hall, hstop, List.append_nil]

/-- **A number is read in front of anything**, if its width is full, or else if no digit
    follows. -/
theorem number?_append {width : Nat} {digits rest : List Char}
    (hall : ∀ c ∈ digits, c.isDigit = true) (hne : digits ≠ []) (hwidth : digits.length ≤ width)
    (hrest : digits.length = width ∨ ∀ c, rest.head? = some c → c.isDigit = false) :
    number? width (digits ++ rest) = some (natOfDigits digits, rest) := by
  have hdigits : ((digits ++ rest).take width).takeWhile Char.isDigit = digits := by
    rw [List.take_append, List.take_of_length_le hwidth]
    refine takeWhile_digits hall fun c hc => ?_
    rw [List.head?_take] at hc
    split at hc
    · cases hc
    next hmore =>
    rcases hrest with hfull | hrest
    · omega
    · exact hrest c hc
  have hempty : digits.isEmpty = false := List.isEmpty_eq_false_iff.2 hne
  unfold number?
  simp only [trimFront_digits hall hne, hdigits, hempty, List.drop_left]
  rfl

theorem number?_padded {width n : Nat} (hpos : 0 < width) (h : n < 10 ^ width) (rest : List Char) :
    number? width (padded width n ++ rest) = some (n, rest) := by
  have hlength := length_padded hpos h
  rw [number?_append (fun c hc => isDigit_of_mem_padded hc) (padded_ne_nil width n)
    (Nat.le_of_eq hlength) (.inl hlength), natOfDigits_padded]

/-! ## 2. The parts of an instant -/

theorem mark?_cons {mark : Char} (h : isBlank mark = false) (rest : List Char) :
    mark? mark (mark :: rest) = some rest := by
  rw [mark?, trimFront, List.dropWhile_cons_of_neg (by rw [h]; exact Bool.false_ne_true)]
  exact if_pos rfl

/-- A year without a sign. -/
theorem year?_digits {digits rest : List Char} (hall : ∀ c ∈ digits, c.isDigit = true) (hne : digits ≠ []) :
    year? (digits ++ rest) = (number? 4 (digits ++ rest)).map fun p => ((p.1 : Int), p.2) := by
  obtain ⟨c, more, rfl, hc⟩ := exists_digit_cons hall hne
  have hrange := digit_range hc
  rw [year?, trimFront_digits hall hne]
  split
  · next heq =>
    rw [(List.cons.inj heq).1] at hc
    cases hc
  · next heq =>
    rw [(List.cons.inj heq).1] at hc
    cases hc
  · rfl

theorem signed?_padded (n : Nat) (rest : List Char) :
    year?.signed? (padded 4 n ++ '-' :: rest) = some (n, '-' :: rest) := by
  have hall : ∀ c ∈ padded 4 n, c.isDigit = true := fun c hc => isDigit_of_mem_padded hc
  obtain ⟨c, more, heq, hc⟩ := exists_digit_cons hall (padded_ne_nil 4 n)
  have hhead : (padded 4 n ++ '-' :: rest).head?.any Char.isDigit = true := by
    rw [heq]
    exact hc
  rw [year?.signed?, if_pos hhead, number?_append hall (padded_ne_nil 4 n), natOfDigits_padded]
  · rw [List.length_append]
    omega
  · refine .inr fun d hd => ?_
    cases hd
    decide

theorem year?_yearText (year : Int) (rest : List Char) :
    year? (yearText year ++ '-' :: rest) = some (year, '-' :: rest) := by
  rw [yearText]
  split
  · next h =>
    rw [year?_digits (fun c hc => isDigit_of_mem_padded hc) (padded_ne_nil 4 _),
      number?_padded (by decide) (by omega), Option.map_some, Int.toNat_of_nonneg h.1]
  · split
    · next hneg =>
      change (year?.signed? (padded 4 year.natAbs ++ '-' :: rest)).map (fun p => (-(p.1 : Int), p.2)) = _
      rw [signed?_padded, Option.map_some]
      have habs : -(year.natAbs : Int) = year := by omega
      rw [habs]
    · next hpos =>
      change (year?.signed? (padded 4 year.natAbs ++ '-' :: rest)).map (fun p => ((p.1 : Int), p.2)) = _
      rw [signed?_padded, Option.map_some]
      have habs : (year.natAbs : Int) = year := by omega
      rw [habs]

theorem fraction?_padded {width n : Nat} (hpos : 0 < width) (hle : width ≤ 9) (h : n < 10 ^ width) :
    fraction? ('.' :: (padded width n ++ ['Z'])) = some (n * 10 ^ (9 - width), ['Z']) := by
  have hall : ∀ c ∈ padded width n, c.isDigit = true := fun c hc => isDigit_of_mem_padded hc
  have hlength := length_padded hpos h
  have hdigits : ((padded width n ++ ['Z']).take 9).takeWhile Char.isDigit = padded width n := by
    rw [List.take_append, List.take_of_length_le (by omega)]
    refine takeWhile_digits hall fun c hc => ?_
    rw [List.head?_take] at hc
    split at hc
    · cases hc
    · cases hc
      decide
  have hrest : (padded width n ++ ['Z']).dropWhile Char.isDigit = ['Z'] := by
    rw [List.dropWhile_append_of_pos hall]
    rfl
  have hempty : (padded width n).isEmpty = false := List.isEmpty_eq_false_iff.2 (padded_ne_nil _ _)
  simp only [fraction?, hdigits, hrest, hempty, natOfDigits_padded, hlength]
  rfl

theorem fraction?_fractionText {nanos : Nat} (h : nanos < 1000000000) :
    fraction? (fractionText nanos ++ ['Z']) = some (nanos, ['Z']) := by
  rw [fractionText]
  split
  · next hzero =>
    rw [hzero]
    rfl
  · split
    · next hmilli =>
      rw [List.cons_append, fraction?_padded (by decide) (by decide) (by omega)]
      have hvalue : nanos / 1000000 * 10 ^ (9 - 3) = nanos := by omega
      rw [hvalue]
    · split
      · next hmicro =>
        rw [List.cons_append, fraction?_padded (by decide) (by decide) (by omega)]
        have hvalue : nanos / 1000 * 10 ^ (9 - 6) = nanos := by omega
        rw [hvalue]
      · rw [List.cons_append, fraction?_padded (by decide) (by decide) (by omega), Nat.sub_self,
          Nat.pow_zero,
          Nat.mul_one]

/-! ## 3. The whole instant -/

theorem monthLength_le (year : Int) (month : Nat) : monthLength year month ≤ 31 := by
  unfold monthLength
  split
  · split <;> decide
  · split <;> decide

/-- The parts of a written instant, one behind the other. -/
theorem toList_text (t : Instant) :
    t.text.toList = yearText t.date.year ++ '-' :: (padded 2 t.date.month ++ '-' :: (padded 2 t.date.day ++
      'T' :: (padded 2 (t.minute / 60) ++ ':' :: (padded 2 (t.minute % 60) ++ ':' :: (padded 2 t.second ++
        (fractionText t.nanos ++ ['Z'])))))) := by
  simp [text, dateText, clockText]

/-- **Reading undoes writing**, for every instant of the calendar. -/
theorem ofText?_text (t : Instant) : ofText? t.text = some t := by
  have hmonth := t.date.month_bounds
  have hday := t.date.day_bounds
  have hlength := monthLength_le t.date.year t.date.month
  have hminute := t.minute.isLt
  have hsecond := t.second.isLt
  change t.minute.val < 1440 at hminute
  have hclock : t.minute.val / 60 * 60 + t.minute.val % 60 = t.minute.val := Nat.div_add_mod' _ _
  have hoffset : offset? ['Z'] = some (0, []) := rfl
  have hdash : isBlank '-' = false := rfl
  have hcolon : isBlank ':' = false := rfl
  have htwo : ∀ {n : Nat} (rest : List Char), n < 100 → number? 2 (padded 2 n ++ rest) = some (n, rest) :=
    fun rest hn => number?_padded (by decide) hn rest
  rw [ofText?, toList_text, year?_yearText]
  dsimp only [bind]
  rw [Option.bind_some, mark?_cons hdash]
  rw [Option.bind_some, htwo _ (by omega)]
  rw [Option.bind_some, mark?_cons hdash]
  rw [Option.bind_some, htwo _ (by omega)]
  rw [Option.bind_some, Date.of?_self]
  dsimp only [Option.bind_some]
  rw [if_pos (.inl rfl), htwo _ (by omega)]
  rw [Option.bind_some, mark?_cons hcolon]
  rw [Option.bind_some, htwo _ (by omega)]
  rw [Option.bind_some, mark?_cons hcolon]
  rw [Option.bind_some, htwo _ (by omega)]
  rw [Option.bind_some, fraction?_fractionText t.nanos.isLt]
  rw [Option.bind_some, hoffset, Option.bind_some]
  dsimp only
  rw [if_neg (by decide), if_neg (by omega),
    dif_pos ⟨by rw [hclock]; exact t.minute.isLt, hsecond, t.nanos.isLt⟩,
    ofLocal?, if_pos rfl]
  simp only [hclock]

end TerraformCloud.Instant
