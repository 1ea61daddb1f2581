/-
  TerraformCloud/Proofs/Simulator/Paging.lean
  ===========================================
  **Pages cut a list exactly, and no step of their arithmetic overflows.**

  A list of fewer than `2 ^ 32` items is answered one page at a time.  Which items a page
  shows, and what it says about its place, is counted in words of 32 and 64 bits.
  `ListQuery.reckon?` counts in words and gives up at the first step that leaves them; for
  such a list no step does, and the outcome is that of plain numbers (`reckon?_eq`).

  What the page says about its place is the truth about the list (`stands_position`), and
  the pages from the first to the last, one behind the other, are the list
  (`flatMap_shown`).
-/
import TerraformCloud.Proofs.Walk.Pages

namespace TerraformCloud.Simulator

open Json (Value)

/-! ## 1. Machine words

Addition and subtraction have no result outside of the words they work on, and a longer
word is shortened only where nothing is lost.  Only the multiplication that gives the
number of items in front of a page stops at the largest address instead. -/

namespace Word

def sub? (a b : UInt32) : Option UInt32 := if b ≤ a then some (a - b) else none

def add? (a b : UInt32) : Option UInt32 :=
  if a.toNat + b.toNat < UInt32.size then some (a + b) else none

/-- Division that rounds up. -/
def divideUp? (a b : UInt64) : Option UInt64 :=
  if b = 0 then none
  else if a % b = 0 then some (a / b)
  else if (a / b).toNat + 1 < UInt64.size then some (a / b + 1)
  else none

def narrow? (a : UInt64) : Option UInt32 :=
  if a.toNat < UInt32.size then some a.toUInt32 else none

def times (a b : UInt32) : Nat := min (a.toNat * b.toNat) (USize.size - 1)

theorem sub?_ofNat {m n : Nat} (hle : n ≤ m) (hm : m < UInt32.size) :
    sub? (.ofNat m) (.ofNat n) = some (.ofNat (m - n)) := by
  have hn : n < UInt32.size := Nat.lt_of_le_of_lt hle hm
  have hwords : UInt32.ofNat n ≤ UInt32.ofNat m := by
    simpa only [UInt32.le_iff_toNat_le, UInt32.toNat_ofNat_of_lt', hm, hn] using hle
  simp only [sub?, if_pos hwords, Option.some.injEq]
  apply UInt32.toNat_inj.1
  have hdiff : m - n < UInt32.size := Nat.lt_of_le_of_lt (Nat.sub_le _ _) hm
  simp only [UInt32.toNat_sub_of_le _ _ hwords, UInt32.toNat_ofNat_of_lt', hm, hn, hdiff]

theorem add?_ofNat {m n : Nat} (h : m + n < UInt32.size) :
    add? (.ofNat m) (.ofNat n) = some (.ofNat (m + n)) := by
  have hm : m < UInt32.size := Nat.lt_of_le_of_lt (Nat.le_add_right m n) h
  have hn : n < UInt32.size := Nat.lt_of_le_of_lt (Nat.le_add_left n m) h
  simp only [add?, UInt32.toNat_ofNat_of_lt', hm, hn, if_pos h, UInt32.ofNat_add]

theorem pageCount_eq {size : Nat} (hsize : 0 < size) (total : Nat) :
    pageCount total size = total / size + if total % size = 0 then 0 else 1 := by
  have hsplit := Nat.div_add_mod total size
  have hless := Nat.mod_lt total hsize
  by_cases hrest : total % size = 0
  · have hsum : total + size - 1 = size * (total / size) + (size - 1) := by omega
    have hnone : (size - 1) / size = 0 := Nat.div_eq_of_lt (by omega)
    simp [pageCount, hrest, hsum, Nat.mul_add_div hsize, hnone]
  · have hsum : total + size - 1 = size * (total / size + 1) + (total % size - 1) := by
      rw [Nat.mul_succ]
      omega
    have hnone : (total % size - 1) / size = 0 := Nat.div_eq_of_lt (by omega)
    rw [pageCount, hsum, Nat.mul_add_div hsize, hnone, if_neg hrest]

/-- **Rounding up in words is rounding up**, and the number of pages is a short word. -/
theorem divideUp?_ofNat {total size : Nat} (htotal : total < UInt32.size) (hpos : 0 < size)
    (hsize : size < UInt32.size) :
    (divideUp? (.ofNat total) (.ofNat size)).bind narrow? = some (.ofNat (pageCount total size)) := by
  have hlong : ∀ {n : Nat}, n < UInt32.size → n < UInt64.size := fun h => Nat.lt_trans h (by decide)
  have hquotient : total / size < UInt32.size := Nat.lt_of_le_of_lt (Nat.div_le_self _ _) htotal
  have hpages : pageCount total size < UInt32.size := Nat.lt_of_le_of_lt (pageCount_le hpos total) htotal
  have hwords : (UInt64.ofNat total / UInt64.ofNat size).toNat = total / size := by
    simp only [UInt64.toNat_div, UInt64.toNat_ofNat_of_lt', hlong htotal, hlong hsize]
  have hzero : UInt64.ofNat total % UInt64.ofNat size = 0 ↔ total % size = 0 := by
    simp only [← UInt64.toNat_inj, UInt64.toNat_mod, UInt64.toNat_ofNat_of_lt', hlong htotal,
      hlong hsize, UInt64.toNat_zero]
  have hdivisor : UInt64.ofNat size ≠ 0 := by
    intro heq
    have hnat := congrArg UInt64.toNat heq
    rw [UInt64.toNat_ofNat_of_lt' (hlong hsize), UInt64.toNat_zero] at hnat
    exact Nat.ne_of_gt hpos hnat
  have hcount := pageCount_eq hpos total
  have hnarrow : ∀ w : UInt64, w.toNat = pageCount total size →
      narrow? w = some (.ofNat (pageCount total size)) := by
    intro w hw
    rw [narrow?, hw, if_pos hpages, ← hw]
    rfl
  by_cases hrest : total % size = 0
  · rw [divideUp?, if_neg hdivisor, if_pos (hzero.2 hrest), Option.bind_some]
    apply hnarrow
    simpa [hrest, hwords] using hcount.symm
  · have hstill : total / size + 1 < UInt64.size := Nat.lt_of_le_of_lt hquotient (by decide)
    rw [divideUp?, if_neg hdivisor, if_neg (mt hzero.1 hrest), hwords, if_pos hstill, Option.bind_some]
    apply hnarrow
    rw [hcount, if_neg hrest, UInt64.toNat_add, hwords]
    exact Nat.mod_eq_of_lt hstill

end Word

/-! ## 2. Counting in words -/

namespace ListQuery

variable (q : ListQuery)

/-- The page that is meant and its size, in words. -/
def wordNumber : UInt32 := max (q.number.getD 1) 1

def wordSize : UInt32 := max 1 (min (q.size.getD 20) 100)

/-- The page before page `n`, and the one behind it if there are so many pages. -/
def previous? (n : UInt32) : Option (Option UInt32) :=
  if 1 < n then (Word.sub? n 1).map some else some none

def next? (n pages : UInt32) : Option (Option UInt32) :=
  if n < pages then (Word.add? n 1).map some else some none

/-- How many items are skipped in front of the page, and where it stands in a list of so
    many items, unless a step leaves its words. -/
def reckon? (total : Nat) : Option (Nat × Pagination) := do
  let count ← if total < UInt64.size then some (UInt64.ofNat total) else none
  let pages ← (Word.divideUp? count q.wordSize.toUInt64).bind Word.narrow?
  let front ← Word.sub? q.wordNumber 1
  let previous ← previous? q.wordNumber
  let next ← next? q.wordNumber pages
  return (Word.times front q.wordSize, ⟨q.wordNumber, previous, next, pages, count⟩)

theorem wordNumber_eq : q.wordNumber = .ofNat q.pageNumber := by
  apply UInt32.toNat_inj.1
  rw [UInt32.toNat_ofNat_of_lt' q.pageNumber_lt, wordNumber, UInt32.max_def, pageNumber]
  cases q.number with
  | none => rfl
  | some n =>
    simp only [Option.getD_some, Option.elim_some, UInt32.le_iff_toNat_le, UInt32.toNat_one]
    split <;> simp <;> omega

theorem pageSize_le : q.pageSize ≤ 100 := Nat.max_le.2 ⟨by decide, Nat.min_le_left _ _⟩

theorem wordSize_eq : q.wordSize = .ofNat q.pageSize := by
  have hsmall : q.pageSize < UInt32.size := Nat.lt_of_le_of_lt q.pageSize_le (by decide)
  apply UInt32.toNat_inj.1
  rw [UInt32.toNat_ofNat_of_lt' hsmall, wordSize, UInt32.max_def, UInt32.min_def, pageSize]
  cases q.size with
  | none => rfl
  | some n =>
    simp only [Option.getD_some, Option.elim_some, UInt32.le_iff_toNat_le, largestSize]
    split <;> split <;> simp_all
    omega

theorem previous?_ofNat {n : Nat} (hn : n < UInt32.size) :
    previous? (.ofNat n) = some (if 1 < n then some (.ofNat (n - 1)) else none) := by
  have hless : 1 < UInt32.ofNat n ↔ 1 < n := by
    rw [UInt32.lt_iff_toNat_lt, UInt32.toNat_ofNat_of_lt' hn, UInt32.toNat_one]
  simp only [previous?, hless]
  split
  · next hmore =>
    have hword : Word.sub? (.ofNat n) 1 = some (.ofNat (n - 1)) := Word.sub?_ofNat (Nat.le_of_lt hmore) hn
    simp [hword]
  · rfl

theorem next?_ofNat {n pages : Nat} (hpages : pages < UInt32.size) (hn : n < UInt32.size) :
    next? (.ofNat n) (.ofNat pages) = some (if n < pages then some (.ofNat (n + 1)) else none) := by
  have hless : UInt32.ofNat n < .ofNat pages ↔ n < pages := by
    rw [UInt32.lt_iff_toNat_lt, UInt32.toNat_ofNat_of_lt' hn, UInt32.toNat_ofNat_of_lt' hpages]
  simp only [next?, hless]
  split
  · next hmore =>
    have hword : Word.add? (.ofNat n) 1 = some (.ofNat (n + 1)) :=
      Word.add?_ofNat (Nat.lt_of_le_of_lt hmore hpages)
    simp [hword]
  · rfl

/-- **No step of the arithmetic leaves its words**, and what comes out is what plain numbers
    give. -/
theorem reckon?_eq {total : Nat} (few : total < 2 ^ 32) :
    q.reckon? total =
      some (min ((q.pageNumber - 1) * q.pageSize) (USize.size - 1), q.position total) := by
  have hlong : total < UInt64.size := Nat.lt_trans few (by decide)
  have hsize : q.pageSize < UInt32.size := Nat.lt_of_le_of_lt q.pageSize_le (by decide)
  have hnumber : q.pageNumber < UInt32.size := q.pageNumber_lt
  have hbefore : q.pageNumber - 1 < UInt32.size := Nat.lt_of_le_of_lt (Nat.sub_le _ _) hnumber
  have hpages : pageCount total q.pageSize < UInt32.size :=
    Nat.lt_of_le_of_lt (pageCount_le q.pageSize_pos total) few
  have hwide : (UInt32.ofNat q.pageSize).toUInt64 = .ofNat q.pageSize := by
    apply UInt64.toNat_inj.1
    rw [UInt32.toNat_toUInt64, UInt32.toNat_ofNat_of_lt' hsize,
      UInt64.toNat_ofNat_of_lt' (Nat.lt_trans hsize (by decide))]
  have hcount := Word.divideUp?_ofNat few q.pageSize_pos hsize
  have hfront : Word.sub? (.ofNat q.pageNumber) 1 = some (.ofNat (q.pageNumber - 1)) :=
    Word.sub?_ofNat (Nat.le_max_left _ _) hnumber
  have hskipped : Word.times (.ofNat (q.pageNumber - 1)) (.ofNat q.pageSize) =
      min ((q.pageNumber - 1) * q.pageSize) (USize.size - 1) := by
    rw [Word.times, UInt32.toNat_ofNat_of_lt' hsize, UInt32.toNat_ofNat_of_lt' hbefore]
  simp only [reckon?, wordNumber_eq, wordSize_eq, if_pos hlong, hwide, Option.bind_eq_bind,
    Option.bind_some, hcount, previous?_ofNat hnumber, next?_ofNat hpages hnumber, hfront, hskipped]
  rfl

end ListQuery

/-! ## 3. Where a page stands -/

/-- What page `n` of a list of `total` items says about its place, if pages have `size` items
    and it tells the truth. -/
structure Stands (n size total : Nat) (p : Pagination) : Prop where
  current : p.currentPage.toNat = n
  count : p.totalCount.toNat = total
  /-- There are just enough pages. -/
  pages : ∀ m, p.totalPages.toNat ≤ m ↔ total ≤ m * size
  next : p.nextPage.map UInt32.toNat = if n * size < total then some (n + 1) else none
  previous : p.previousPage.map UInt32.toNat = if 1 < n then some (n - 1) else none

namespace ListQuery

variable (q : ListQuery)

theorem toNat_totalPages {total : Nat} (few : total < 2 ^ 32) :
    (q.position total).totalPages.toNat = pageCount total q.pageSize :=
  UInt32.toNat_ofNat_of_lt' (Nat.lt_of_le_of_lt (pageCount_le q.pageSize_pos total) few)

/-- **A page tells the truth about its place.** -/
theorem stands_position {total : Nat} (few : total < 2 ^ 32) :
    Stands q.pageNumber q.pageSize total (q.position total) := by
  have hnumber : q.pageNumber < UInt32.size := q.pageNumber_lt
  constructor
  · exact UInt32.toNat_ofNat_of_lt' hnumber
  · exact UInt64.toNat_ofNat_of_lt' (Nat.lt_trans few (by decide))
  · intro m
    rw [q.toNat_totalPages few, ← Nat.not_lt, lt_pageCount_iff q.pageSize_pos, Nat.not_lt]
  · have hpages := pageCount_le q.pageSize_pos total
    simp only [position, lt_pageCount_iff q.pageSize_pos]
    split
    · next hmore =>
      have hless := (lt_pageCount_iff q.pageSize_pos q.pageNumber).2 hmore
      have hword : q.pageNumber + 1 < UInt32.size :=
        Nat.lt_of_le_of_lt (Nat.le_trans hless hpages) few
      simp only [Option.map_some, UInt32.toNat_ofNat_of_lt' hword]
    · rfl
  · simp only [position]
    split
    · have hword : q.pageNumber - 1 < UInt32.size := Nat.lt_of_le_of_lt (Nat.sub_le _ _) hnumber
      simp only [Option.map_some, UInt32.toNat_ofNat_of_lt' hword]
    · rfl

/-! ## 4. All pages -/

variable {α : Type} (items : List α)

/-- The items that a query is answered with. -/
def shown : List α := pageItems items q.pageNumber q.pageSize

/-- The same query for another page. -/
def turned (number : UInt32) : ListQuery := { q with number := some number }

theorem shown_eq : q.shown items =
    (items.take (q.pageNumber * q.pageSize)).drop ((q.pageNumber - 1) * q.pageSize) := by
  have hfirst : 1 ≤ q.pageNumber := Nat.le_max_left 1 _
  have hpage : q.pageNumber * q.pageSize - (q.pageNumber - 1) * q.pageSize = q.pageSize := by
    rw [← Nat.sub_mul, Nat.sub_sub_self hfirst, Nat.one_mul]
  rw [List.drop_take, hpage]
  rfl

/-- To stop at the largest address when counting what is skipped changes nothing. -/
theorem shown_of_address (few : items.length < 2 ^ 32) : q.shown items =
    (items.drop (min ((q.pageNumber - 1) * q.pageSize) (USize.size - 1))).take q.pageSize := by
  have haddress : items.length ≤ USize.size - 1 :=
    Nat.le_sub_one_of_lt (Nat.lt_of_lt_of_le few USize.le_size)
  rw [shown, pageItems]
  rcases Nat.le_total ((q.pageNumber - 1) * q.pageSize) (USize.size - 1) with hle | hle
  · rw [Nat.min_eq_left hle]
  · rw [Nat.min_eq_right hle, List.drop_eq_nil_of_le haddress,
      List.drop_eq_nil_of_le (Nat.le_trans haddress hle)]

theorem shown_turned {n : Nat} (hfirst : 1 ≤ n) (hn : n < 2 ^ 32) :
    (q.turned (.ofNat n)).shown items = pageItems items n q.pageSize := by
  have hnumber : (q.turned (.ofNat n)).pageNumber = n := by
    have hword : (UInt32.ofNat n).toNat = n := UInt32.toNat_ofNat_of_lt' hn
    simp [pageNumber, turned, hword, hfirst]
  rw [shown, hnumber]
  rfl

/-- The first pages, one behind the other, are the front of the list. -/
theorem flatMap_shown {pages : Nat} (h : pages < 2 ^ 32) :
    ((List.range pages).flatMap fun k => (q.turned (.ofNat (k + 1))).shown items) =
      items.take (pages * q.pageSize) := by
  induction pages with
  | zero => simp
  | succ pages ih =>
    have hfront : items.take (pages * q.pageSize) ++ pageItems items (pages + 1) q.pageSize =
        items.take ((pages + 1) * q.pageSize) := Walk.take_pages items (Nat.succ_pos _)
    rw [List.range_succ, List.flatMap_append, ih (Nat.lt_of_succ_lt h), List.flatMap_singleton,
      q.shown_turned items (Nat.succ_pos _) h]
    exact hfront

theorem shown_behind {number : Nat} (h : pageCount items.length q.pageSize < number) :
    pageItems items number q.pageSize = [] := by
  have hall : items.length ≤ (number - 1) * q.pageSize := by
    apply Nat.not_lt.1
    rw [← lt_pageCount_iff q.pageSize_pos]
    omega
  simp [pageItems, List.drop_eq_nil_of_le hall]

end ListQuery

/-- **Pages cut a list exactly.**  For a list of fewer than `2 ^ 32` items and any page that
    is asked for, no step of the arithmetic overflows.  The answer shows the items of the
    page and tells the truth about its place, the pages from the first to the last are the
    list, and behind them there is nothing. -/
theorem pages_cut_exactly {α : Type} [Attributes α] (items : List (Resource α))
    (few : items.length < 2 ^ 32) (q : ListQuery) :
    let n := max (q.number.elim 1 UInt32.toNat) 1
    let size := max 1 (min 100 (q.size.elim 20 UInt32.toNat))
    ∃ start p, q.reckon? items.length = some (start, p) ∧
      listing items q = document 200 (.object
        [("data", .array ((q.shown items).map typed)),
         ("meta", .object [("pagination", Recorded.write p)])]) ∧
      q.shown items = (items.drop start).take size ∧
      q.shown items = (items.take (n * size)).drop ((n - 1) * size) ∧
      Stands n size items.length p ∧
      ((List.range p.totalPages.toNat).flatMap fun k => (q.turned (.ofNat (k + 1))).shown items) = items ∧
      ∀ number, p.totalPages < number → (q.turned number).shown items = [] := by
  intro n size
  have hn : q.pageNumber = n := Nat.max_comm _ _
  have hsize : q.pageSize = size := rfl
  refine ⟨_, _, q.reckon?_eq few, ?_, ?_, ?_, ?_, ?_, ?_⟩
  · rw [q.write_position few]
    rfl
  · exact q.shown_of_address items few
  · rw [← hn, ← hsize]
    exact q.shown_eq items
  · rw [← hn, ← hsize]
    exact q.stands_position few
  · have hpages := pageCount_le q.pageSize_pos items.length
    rw [q.toNat_totalPages few, q.flatMap_shown items (Nat.lt_of_le_of_lt hpages few)]
    exact Walk.take_of_no_more items q.pageSize_pos (Nat.lt_irrefl _)
  · intro number hbehind
    rw [UInt32.lt_iff_toNat_lt, q.toNat_totalPages few] at hbehind
    rw [← UInt32.ofNat_toNat (x := number), q.shown_turned items (by omega) number.toNat_lt]
    exact q.shown_behind items hbehind

/-- The second of two pages with one organization each. -/
theorem globex_on_second_page :
    exampleOrganizations.length < 2 ^ 32 ∧
      let q : ListQuery := ⟨some 2, some 1, none⟩
      ∃ p : Pagination, listing exampleOrganizations q = document 200 (.object
          [("data", .array [typed (exampleOrganization "globex")]),
           ("meta", .object [("pagination", Recorded.write p)])]) ∧
        p.nextPage = none ∧ p.previousPage = some 1 := by
  have few : exampleOrganizations.length < 2 ^ 32 := by decide
  refine ⟨few, ?_⟩
  intro q
  obtain ⟨start, p, -, hanswer, -, -, hstands, -, -⟩ := pages_cut_exactly exampleOrganizations few q
  have hnext : p.nextPage.map UInt32.toNat = none := hstands.next.trans (by decide)
  have hprevious : p.previousPage.map UInt32.toNat = some 1 := hstands.previous.trans (by decide)
  obtain ⟨w, hw, hone⟩ := Option.map_eq_some_iff.1 hprevious
  refine ⟨p, hanswer, Option.map_eq_none_iff.1 hnext, ?_⟩
  rw [hw, UInt32.toNat_inj.1 (hone.trans UInt32.toNat_one.symm)]

end TerraformCloud.Simulator
