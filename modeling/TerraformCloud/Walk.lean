/-
  TerraformCloud/Walk.lean
  ========================
  **Walking through all pages of a collection.**

  A walk starts at the first page and follows what each page says about the next one,
  as long as that leads forward and not past the last page that is ever asked for.
  So every walk ends, whatever the other side answers.
-/
import TerraformCloud.Service.Call

namespace TerraformCloud.Walk

/-- No page beyond this one is asked for. -/
def lastPage : Nat := 1000

/-- How many items a page has where the caller does not say. -/
def defaultSize : UInt32 := 100

variable {σ ο ι π : Type} [Paginated ο] [PageInfo π]

/-- The options that ask for a page by number; a size that is given stays. -/
def at_ (options : ο) (number : Nat) : ο :=
  let size := (Paginated.page options).size.getD defaultSize
  Paginated.withPage options ⟨some (UInt32.ofNat number), some size⟩

/-- The page to go on with, if there is one that leads forward. -/
def following (number : Nat) (position : π) : Option { n : Nat // number < n ∧ n ≤ lastPage } :=
  match PageInfo.nextPage position with
  | none => none
  | some next =>
    if h : number < next.toNat ∧ next.toNat ≤ lastPage then some ⟨next.toNat, h⟩ else none

/-- Walks on from a page, behind the items that were collected so far. -/
def collectFrom (fetch : ο → σ → Result σ (Page ι π)) (options : ο) (number : Nat)
    (collected : List ι) (s : σ) : Result σ (List ι) :=
  match fetch (at_ options number) s with
  | (.error e, s) => (.error e, s)
  | (.ok page, s) =>
    match following number page.pagination with
    | none => (.ok (collected ++ page.items), s)
    | some ⟨next, _⟩ => collectFrom fetch options next (collected ++ page.items) s
termination_by lastPage - number
decreasing_by omega

/-- The items of all pages, in order. -/
def collectAll (fetch : ο → σ → Result σ (Page ι π)) (options : ο) (s : σ) : Result σ (List ι) :=
  collectFrom fetch options 1 [] s

end TerraformCloud.Walk
