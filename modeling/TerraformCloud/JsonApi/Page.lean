/-
  TerraformCloud/JsonApi/Page.lean
  ================================
  **Pages of a collection and where they stand in it.**

  Most collections report a full position with totals; some only say which pages come
  before and after.  A position that is not reported has every field at its zero.
-/
import TerraformCloud.Schema.Recorded

namespace TerraformCloud

/-- A position in a collection, with totals. -/
structure Pagination where
  currentPage : UInt32
  previousPage : Option UInt32
  nextPage : Option UInt32
  totalPages : UInt32
  totalCount : UInt64
deriving DecidableEq, Repr

/-- A position in a collection by its neighbours alone. -/
structure Neighbours where
  currentPage : UInt32
  previousPage : Option UInt32
  nextPage : Option UInt32
deriving DecidableEq, Repr

/-- Positions that a walk through a collection can follow. -/
class PageInfo (π : Type) extends Recorded π where
  currentPage : π → UInt32
  nextPage : π → Option UInt32

instance : PageInfo Pagination where
  fields := .ofList
    [("current-page", .defaulted, .natural32), ("prev-page", .defaulted, .optional .natural32),
     ("next-page", .defaulted, .optional .natural32), ("total-pages", .defaulted, .natural32),
     ("total-count", .defaulted, .natural64)]
  record p := (p.currentPage, p.previousPage, p.nextPage, p.totalPages, p.totalCount, ())
  ofRecord := fun (current, previous, next, pages, count, ()) => ⟨current, previous, next, pages, count⟩
  ofRecord_record _ := rfl
  record_ofRecord _ := rfl
  currentPage p := p.currentPage
  nextPage p := p.nextPage

instance : PageInfo Neighbours where
  fields := .ofList
    [("current-page", .defaulted, .natural32), ("prev-page", .defaulted, .optional .natural32),
     ("next-page", .defaulted, .optional .natural32)]
  record p := (p.currentPage, p.previousPage, p.nextPage, ())
  ofRecord := fun (current, previous, next, ()) => ⟨current, previous, next⟩
  ofRecord_record _ := rfl
  record_ofRecord _ := rfl
  currentPage p := p.currentPage
  nextPage p := p.nextPage

/-- One page of a collection. -/
structure Page (ι π : Type) where
  items : List ι
  pagination : π
deriving Repr

namespace Page

variable {ι κ π : Type}

def map (f : ι → κ) (p : Page ι π) : Page κ π := ⟨p.items.map f, p.pagination⟩

/-- Whether a page follows. -/
def hasMore [PageInfo π] (p : Page ι π) : Bool := (PageInfo.nextPage p.pagination).isSome

/-- The line that tells a person where a page stands. -/
def footer (p : Pagination) : String :=
  if p.totalPages ≠ 0 then
    "Page " ++ toString p.currentPage ++ "/" ++ toString p.totalPages ++ " (" ++
      toString p.totalCount ++ " total items)"
  else if p.nextPage.isSome then "Page " ++ toString p.currentPage ++ " (more available)"
  else "Page " ++ toString p.currentPage ++ " (end)"

end Page
end TerraformCloud
