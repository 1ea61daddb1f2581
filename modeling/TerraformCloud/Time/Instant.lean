/-
  TerraformCloud/Time/Instant.lean
  ================================
  **Points in time, by calendar and clock in universal time.**

  An instant is kept as the date and the time of day that a person would write, so
  that writing it and reading it back is a matter of digits.  A time written with an
  offset from universal time is moved by that offset when it is read; an offset is
  shorter than a day, so the date moves by at most one day.
-/
import TerraformCloud.Number.DecimalText
import TerraformCloud.Text.Blank

namespace TerraformCloud

/-! ### The calendar -/

def isLeapYear (year : Int) : Bool :=
  year % 4 = 0 && (year % 100 ≠ 0 || year % 400 = 0)

/-- The number of days of a month. -/
def monthLength (year : Int) (month : Nat) : Nat :=
  if month = 2 then (if isLeapYear year then 29 else 28)
  else if month = 4 ∨ month = 6 ∨ month = 9 ∨ month = 11 then 30
  else 31

/-- The first and the last year of the calendar. -/
def firstYear : Int := -262143

def lastYear : Int := 262142

structure Date where
  year : Int
  month : Nat
  day : Nat
  year_bounds : firstYear ≤ year ∧ year ≤ lastYear
  month_bounds : 1 ≤ month ∧ month ≤ 12
  day_bounds : 1 ≤ day ∧ day ≤ monthLength year month
deriving DecidableEq, Repr

namespace Date

/-- The day with this year, month and day of the month. -/
def of? (year : Int) (month day : Nat) : Option Date :=
  if h : (firstYear ≤ year ∧ year ≤ lastYear) ∧ (1 ≤ month ∧ month ≤ 12) ∧
      (1 ≤ day ∧ day ≤ monthLength year month) then
    some ⟨year, month, day, h.1, h.2.1, h.2.2⟩
  else none

theorem of?_self (d : Date) : of? d.year d.month d.day = some d := by
  unfold of?
  rw [dif_pos ⟨d.year_bounds, d.month_bounds, d.day_bounds⟩]

/-- The day after, unless the calendar ends. -/
def next (d : Date) : Option Date :=
  if d.day < monthLength d.year d.month then of? d.year d.month (d.day + 1)
  else if d.month < 12 then of? d.year (d.month + 1) 1
  else of? (d.year + 1) 1 1

/-- The day before, unless the calendar starts. -/
def previous (d : Date) : Option Date :=
  if 1 < d.day then of? d.year d.month (d.day - 1)
  else if 1 < d.month then of? d.year (d.month - 1) (monthLength d.year (d.month - 1))
  else of? (d.year - 1) 12 31

end Date

/-! ### Instants -/

def minutesPerDay : Nat := 1440

/-- A date and a time of day in universal time.  Second sixty is a leap second. -/
structure Instant where
  date : Date
  /-- Minutes since midnight. -/
  minute : Fin minutesPerDay
  second : Fin 61
  nanos : Fin 1000000000
deriving DecidableEq, Repr

namespace Instant

/-- The instant of a local time that is `ahead` minutes ahead of universal time. -/
def ofLocal? (date : Date) (minute : Fin minutesPerDay) (second : Fin 61) (nanos : Fin 1000000000)
    (ahead : Int) : Option Instant :=
  if ahead = 0 then some ⟨date, minute, second, nanos⟩
  else
    let shifted := (minute.val : Int) - ahead
    let day :=
      if shifted < 0 then date.previous
      else if (minutesPerDay : Int) ≤ shifted then date.next
      else some date
    day.map fun d =>
      ⟨d, ⟨(shifted % minutesPerDay).toNat, by
        have h : (0 : Int) < minutesPerDay := by decide
        have h1 := Int.emod_nonneg shifted (Int.ne_of_gt h)
        have h2 := Int.emod_lt_of_pos shifted h
        omega⟩, second, nanos⟩

/-! ### Writing -/

/-- A number with at least `width` digits. -/
def padded (width n : Nat) : List Char :=
  let digits := Nat.toDigits 10 n
  List.replicate (width - digits.length) '0' ++ digits

/-- A year has four digits, and a sign when four digits are not enough. -/
def yearText (year : Int) : List Char :=
  if 0 ≤ year ∧ year ≤ 9999 then padded 4 year.toNat
  else (if year < 0 then '-' else '+') :: padded 4 year.natAbs

def dateText (d : Date) : List Char :=
  yearText d.year ++ '-' :: padded 2 d.month ++ '-' :: padded 2 d.day

def clockText (t : Instant) : List Char :=
  padded 2 (t.minute / 60) ++ ':' :: padded 2 (t.minute % 60) ++ ':' :: padded 2 t.second

/-- The fraction of a second in three, six or nine digits, nothing when it is zero. -/
def fractionText (nanos : Nat) : List Char :=
  if nanos = 0 then []
  else if nanos % 1000000 = 0 then '.' :: padded 3 (nanos / 1000000)
  else if nanos % 1000 = 0 then '.' :: padded 6 (nanos / 1000)
  else '.' :: padded 9 nanos

/-- The instant as documents spell it. -/
def text (t : Instant) : String :=
  String.ofList (dateText t.date ++ 'T' :: clockText t ++ fractionText t.nanos ++ ['Z'])

/-- The instant as a person reads it, to the second. -/
def readable (t : Instant) : String :=
  String.ofList (dateText t.date ++ ' ' :: clockText t ++ " UTC".toList)

/-! ### Reading -/

/-- Reads at least one and at most `width` digits, behind any blanks. -/
def number? (width : Nat) (text : List Char) : Option (Nat × List Char) :=
  let text := trimFront text
  let digits := (text.take width).takeWhile Char.isDigit
  if digits.isEmpty then none else some (natOfDigits digits, text.drop digits.length)

/-- Reads a year: four digits at most, any number of them behind a sign. -/
def year? (text : List Char) : Option (Int × List Char) :=
  match trimFront text with
  | '-' :: rest => (signed? rest).map fun (n, r) => (-(n : Int), r)
  | '+' :: rest => (signed? rest).map fun (n, r) => ((n : Int), r)
  | _ => (number? 4 text).map fun (n, r) => ((n : Int), r)
where
  /-- Digits right behind the sign. -/
  signed? (rest : List Char) : Option (Nat × List Char) :=
    if rest.head?.any Char.isDigit then number? rest.length rest else none

/-- Reads a mark, behind any blanks. -/
def mark? (mark : Char) (text : List Char) : Option (List Char) :=
  match trimFront text with
  | c :: rest => if c = mark then some rest else none
  | [] => none

/-- Reads a fraction of a second; digits beyond the ninth are dropped. -/
def fraction? : List Char → Option (Nat × List Char)
  | '.' :: rest =>
    let digits := (rest.take 9).takeWhile Char.isDigit
    if digits.isEmpty then none
    else some (natOfDigits digits * Nat.pow 10 (9 - digits.length), rest.dropWhile Char.isDigit)
  | text => some (0, text)

/-- Reads the distance from universal time in minutes: `Z`, `UTC`, or a sign, hours
    and minutes, which colons and blanks may separate. -/
def offset? (text : List Char) : Option (Int × List Char) :=
  let text := trimFront text
  if (text.take 3).map Char.toLower = ['u', 't', 'c'] then some (0, text.drop 3)
  else
    match text with
    | 'Z' :: rest => some (0, rest)
    | 'z' :: rest => some (0, rest)
    | sign :: a :: b :: rest =>
      if (sign = '+' ∨ sign = '-' ∨ sign = '−') ∧ a.isDigit ∧ b.isDigit then
        match rest.dropWhile (fun c => c = ':' || isBlank c) with
        | c :: d :: rest' =>
          let minutes := natOfDigits [c, d]
          if c.isDigit ∧ d.isDigit ∧ minutes < 60 then
            let total : Int := natOfDigits [a, b] * 60 + minutes
            if total < minutesPerDay then some (if sign = '+' then total else -total, rest') else none
          else none
        | _ => none
      else none
    | _ => none

/-- The instant that a text spells: date and time with blanks allowed around their
    parts, separated by `T` or a blank, then the distance from universal time. -/
def ofText? (text : String) : Option Instant := do
  let (year, rest) ← year? text.toList
  let rest ← mark? '-' rest
  let (month, rest) ← number? 2 rest
  let rest ← mark? '-' rest
  let (day, rest) ← number? 2 rest
  let date ← Date.of? year month day
  let rest ← match rest with
    | c :: r => if c = 'T' ∨ c = 't' ∨ c = ' ' then some r else none
    | [] => none
  let (hour, rest) ← number? 2 rest
  let rest ← mark? ':' rest
  let (minute, rest) ← number? 2 rest
  let rest ← mark? ':' rest
  let (second, rest) ← number? 2 rest
  let (nanos, rest) ← fraction? rest
  let (ahead, rest) ← offset? rest
  if !(trimFront rest).isEmpty then none
  else if 60 ≤ minute then none
  else if h : hour * 60 + minute < minutesPerDay ∧ second < 61 ∧ nanos < 1000000000 then
    ofLocal? date ⟨hour * 60 + minute, h.1⟩ ⟨second, h.2.1⟩ ⟨nanos, h.2.2⟩ ahead
  else none

end Instant
end TerraformCloud
