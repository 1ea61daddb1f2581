/-
  TerraformCloud/Proofs/Walk/Fetches.lean
  =======================================
  **Which pages a walk asks for, whoever answers.**

  The other side decides which page comes next, and it may say anything.  A walk follows
  only what leads forward and not past the last page, so there are never more fetches than
  pages up to there, each of them asks for what the answer before it named, and the first
  answer that names nothing of the kind is the last one.

  What a walk does is observed from outside: the walk itself runs over a fetch that
  remembers what it is asked and what it answers (`remembering`), which changes nothing of
  the walk.  `Walked` says what the memory can be, with one constructor for each way a
  round can go, and `IsWalk` says what a caller can rely on.
-/
import Mathlib.Data.List.Chain
import TerraformCloud.Walk.Listing

namespace TerraformCloud

/-! ## 1. Options that contain a page -/

/-- The page is a part of the options like any other: it is what it was set to, and to
    set it touches nothing else. -/
class LawfulPaginated (ο : Type) [Paginated ο] : Prop where
  page_withPage (o : ο) (p : PageRequest) : Paginated.page (Paginated.withPage o p) = p
  withPage_withPage (o : ο) (p q : PageRequest) :
    Paginated.withPage (Paginated.withPage o p) q = Paginated.withPage o q
  withPage_page (o : ο) : Paginated.withPage o (Paginated.page o) = o

instance : LawfulPaginated PageRequest := ⟨fun _ _ => rfl, fun _ _ _ => rfl, fun _ => rfl⟩

instance : LawfulPaginated Organizations.ListOptions := ⟨fun _ _ => rfl, fun _ _ _ => rfl, fun _ => rfl⟩

instance : LawfulPaginated Projects.ListOptions := ⟨fun _ _ => rfl, fun _ _ _ => rfl, fun _ => rfl⟩

instance : LawfulPaginated Workspaces.ListOptions := ⟨fun _ _ => rfl, fun _ _ _ => rfl, fun _ => rfl⟩

instance : LawfulPaginated Runs.ListOptions := ⟨fun _ _ => rfl, fun _ _ _ => rfl, fun _ => rfl⟩

instance : LawfulPaginated VariableSets.ListOptions := ⟨fun _ _ => rfl, fun _ _ _ => rfl, fun _ => rfl⟩

instance : LawfulPaginated Policies.ListOptions := ⟨fun _ _ => rfl, fun _ _ _ => rfl, fun _ => rfl⟩

instance : LawfulPaginated RegistryProviders.ListOptions :=
  ⟨fun _ _ => rfl, fun _ _ _ => rfl, fun _ => rfl⟩

/-- Every list of the service is one of these. -/
instance : LawfulPaginated Listing where
  page_withPage l p := by cases l <;> rfl
  withPage_withPage l p q := by cases l <;> rfl
  withPage_page l := by cases l <;> rfl

namespace Walk

/-! ## 2. Fetches that are remembered -/

/-- A page that was asked for, and the answer. -/
structure Fetched (ο ι π : Type) where
  options : ο
  answer : Except ApiError (Page ι π)

variable {σ ο ι π : Type}

namespace Fetched

/-- The number of the page that was asked for. -/
def number? [Paginated ο] (x : Fetched ο ι π) : Option UInt32 := (Paginated.page x.options).number

/-- The items on the page that was answered. -/
def items (x : Fetched ο ι π) : List ι :=
  match x.answer with
  | .ok page => page.items
  | .error _ => []

end Fetched

/-- The same fetch, with a memory. -/
def remembering (fetch : ο → σ → Result σ (Page ι π)) (options : ο)
    (s : σ × List (Fetched ο ι π)) : Result (σ × List (Fetched ο ι π)) (Page ι π) :=
  let (answer, after) := fetch options s.1
  (answer, after, s.2 ++ [⟨options, answer⟩])

section Asking

variable [Paginated ο] [LawfulPaginated ο] (options : ο) (number : Nat)

theorem page_at : Paginated.page (at_ options number) =
    ⟨some (UInt32.ofNat number), some ((Paginated.page options).size.getD 100)⟩ :=
  LawfulPaginated.page_withPage _ _

theorem withPage_at : Paginated.withPage (at_ options number) (Paginated.page options) = options :=
  (LawfulPaginated.withPage_withPage _ _ _).trans (LawfulPaginated.withPage_page _)

theorem number?_at (answer : Except ApiError (Page ι π)) :
    Fetched.number? ⟨at_ options number, answer⟩ = some (UInt32.ofNat number) := by
  rw [Fetched.number?, page_at]

end Asking

variable [Paginated ο] [PageInfo π]

/-- What a walk from a page on fetches, and what it gives. -/
inductive Walked (options : ο) : Nat → List (Fetched ο ι π) → Except ApiError (List ι) → Prop where
  | failed {number : Nat} (e : ApiError) :
      Walked options number [⟨at_ options number, .error e⟩] (.error e)
  | ended {number : Nat} {page : Page ι π} (last : following number page.pagination = none) :
      Walked options number [⟨at_ options number, .ok page⟩] (.ok page.items)
  | went {number : Nat} {page : Page ι π} {next : { n : Nat // number < n ∧ n ≤ lastPage }}
      {log : List (Fetched ο ι π)} {result : Except ApiError (List ι)}
      (follows : following number page.pagination = some next)
      (rest : Walked options next.val log result) :
      Walked options number (⟨at_ options number, .ok page⟩ :: log) (result.map (page.items ++ ·))

/-- **Every walk is one of these**, and to remember it changes nothing of it. -/
theorem collectFrom_walked (fetch : ο → σ → Result σ (Page ι π)) (options : ο) (number : Nat)
    (collected : List ι) (s : σ) :
    ∃ log result s', Walked options number log result ∧
      collectFrom fetch options number collected s = (result.map (collected ++ ·), s') ∧
      ∀ before, collectFrom (remembering fetch) options number collected (s, before) =
        (result.map (collected ++ ·), s', before ++ log) := by
  rcases hfetch : fetch (at_ options number) s with ⟨answer, s₁⟩
  have hremember : ∀ before, remembering fetch (at_ options number) (s, before) =
      (answer, s₁, before ++ [⟨at_ options number, answer⟩]) := by
    intro before
    rw [remembering, hfetch]
  cases answer with
  | error e =>
    refine ⟨_, _, s₁, .failed e, ?_, fun before => ?_⟩
    · rw [collectFrom, hfetch]
      rfl
    · rw [collectFrom, hremember]
      rfl
  | ok page =>
    cases hnext : following number page.pagination with
    | none =>
      refine ⟨_, _, s₁, .ended hnext, ?_, fun before => ?_⟩
      · rw [collectFrom, hfetch]
        dsimp only
        rw [hnext]
        rfl
      · rw [collectFrom, hremember]
        dsimp only
        rw [hnext]
        rfl
    | some next =>
      have hforward := next.property
      obtain ⟨log, result, s', hwalked, hcollect, hlog⟩ :=
        collectFrom_walked fetch options next.val (collected ++ page.items) s₁
      have hresult : (result.map (page.items ++ ·)).map (collected ++ ·) =
          result.map (collected ++ page.items ++ ·) := by
        cases result <;> simp [Except.map]
      refine ⟨_, _, s', .went hnext hwalked, ?_, fun before => ?_⟩
      · rw [collectFrom, hfetch]
        dsimp only
        rw [hnext, hresult]
        exact hcollect
      · rw [collectFrom, hremember]
        dsimp only
        rw [hnext, hresult]
        dsimp only
        rw [hlog, List.append_assoc]
        rfl
termination_by lastPage - number
decreasing_by omega

/-! ## 3. What a caller can rely on -/

/-- One fetch leads to another: its answer names the page that is asked for next, which is
    further on and not past the thousandth. -/
def Leads (x y : Fetched ο ι π) : Prop :=
  ∃ page number next, x.answer = .ok page ∧ x.number? = some number ∧
    PageInfo.nextPage page.pagination = some next ∧ y.number? = some next ∧
    number < next ∧ next.toNat ≤ 1000

/-- A fetch ends a walk: it fails, or its answer names no page that leads forward and is
    not past the thousandth. -/
def Ends (x : Fetched ο ι π) : Prop :=
  ∀ page, x.answer = .ok page → ∃ number, x.number? = some number ∧
    ∀ next, PageInfo.nextPage page.pagination = some next → next ≤ number ∨ 1000 < next.toNat

/-- What was fetched on a walk with some options, and its result. -/
structure IsWalk (options : ο) (log : List (Fetched ο ι π)) (result : Except ApiError (List ι)) :
    Prop where
  bounded : log.length ≤ 1000
  /-- Whatever page the options name, the first one is asked for first. -/
  starts : log.head?.bind Fetched.number? = some 1
  leads : log.IsChain Leads
  /-- The last answer decides whether there are items or an error. -/
  ends : ∃ x, log.getLast? = some x ∧ Ends x ∧ result = x.answer.map fun _ => log.flatMap Fetched.items
  /-- The size is the one of the caller, or a hundred. -/
  size : ∀ x ∈ log, (Paginated.page x.options).size = some ((Paginated.page options).size.getD 100)
  /-- But for the page, the options are those of the caller. -/
  others : ∀ x ∈ log, Paginated.withPage x.options (Paginated.page options) = options

section Following

variable {position : π} {number : Nat}

theorem following_eq_some {next : { n : Nat // number < n ∧ n ≤ lastPage }}
    (h : following number position = some next) :
    PageInfo.nextPage position = some (UInt32.ofNat next.val) := by
  unfold following at h
  split at h
  · cases h
  · next named hnamed =>
    split at h
    · cases h
      rw [hnamed, UInt32.ofNat_toNat]
    · cases h

theorem following_eq_none (h : following number position = none) {next : UInt32}
    (hnext : PageInfo.nextPage position = some next) : next.toNat ≤ number ∨ lastPage < next.toNat := by
  unfold following at h
  rw [hnext] at h
  dsimp only at h
  split at h
  · cases h
  · next hno => omega

end Following

theorem toNat_of_le_lastPage {number : Nat} (h : number ≤ lastPage) : (UInt32.ofNat number).toNat = number :=
  UInt32.toNat_ofNat_of_lt' (Nat.lt_of_le_of_lt h (by decide))

namespace Walked

variable {options : ο} {number : Nat} {log : List (Fetched ο ι π)} {result : Except ApiError (List ι)}

/-- A walk fetches something, first of all the page that it stands at. -/
theorem head? (h : Walked options number log result) :
    ∃ answer, log.head? = some ⟨at_ options number, answer⟩ := by
  cases h with
  | failed e => exact ⟨_, rfl⟩
  | ended last => exact ⟨_, rfl⟩
  | went follows rest => exact ⟨_, rfl⟩

/-- **Each fetch is further on than the one before it**, so there is room for so many only. -/
theorem length_le (h : Walked options number log result) (hnumber : number ≤ lastPage) :
    log.length + number ≤ lastPage + 1 := by
  induction h with
  | failed e => simpa [Nat.add_comm] using hnumber
  | ended last => simpa [Nat.add_comm] using hnumber
  | @went number page next log result follows rest ih =>
    have hrest := ih next.property.2
    have hforward := next.property.1
    rw [List.length_cons]
    omega

theorem asked (h : Walked options number log result) : ∀ x ∈ log, ∃ n, x.options = at_ options n := by
  induction h with
  | failed e => exact fun x hx => ⟨_, congrArg Fetched.options (List.mem_singleton.1 hx)⟩
  | ended last => exact fun x hx => ⟨_, congrArg Fetched.options (List.mem_singleton.1 hx)⟩
  | went follows rest ih =>
    intro x hx
    rcases List.mem_cons.1 hx with rfl | hx
    · exact ⟨_, rfl⟩
    · exact ih x hx

variable [LawfulPaginated ο]

theorem leads (h : Walked options number log result) (hnumber : number ≤ lastPage) :
    log.IsChain Leads := by
  induction h with
  | failed e => exact .singleton _
  | ended last => exact .singleton _
  | @went number page next log result follows rest ih =>
    refine List.isChain_cons.2 ⟨fun y hy => ?_, ih next.property.2⟩
    obtain ⟨answer, hhead⟩ := rest.head?
    obtain rfl : _ = y := Option.some.inj (hhead.symm.trans hy)
    refine ⟨page, .ofNat number, .ofNat next.val, rfl, number?_at _ _ _, following_eq_some follows,
      number?_at _ _ _, ?_, ?_⟩
    · rw [UInt32.lt_iff_toNat_lt, toNat_of_le_lastPage hnumber, toNat_of_le_lastPage next.property.2]
      exact next.property.1
    · rw [toNat_of_le_lastPage next.property.2]
      exact next.property.2

theorem ends (h : Walked options number log result) (hnumber : number ≤ lastPage) :
    ∃ x, log.getLast? = some x ∧ Ends x ∧
      result = x.answer.map fun _ => log.flatMap Fetched.items := by
  induction h with
  | failed e => exact ⟨_, rfl, nofun, rfl⟩
  | @ended number page last =>
    refine ⟨_, rfl, ?_, by simp [Except.map, Fetched.items]⟩
    rintro _ ⟨⟩
    refine ⟨.ofNat number, number?_at _ _ _, fun next hnext => ?_⟩
    rw [UInt32.le_iff_toNat_le, toNat_of_le_lastPage hnumber]
    exact following_eq_none last hnext
  | @went number page next log result follows rest ih =>
    obtain ⟨x, hlast, hends, rfl⟩ := ih next.property.2
    refine ⟨x, ?_, hends, ?_⟩
    · rw [List.getLast?_cons, hlast]
      rfl
    · cases x.answer <;> simp [Except.map, Fetched.items]

/-- What a walk from the first page on does is what a caller can rely on. -/
theorem isWalk (h : Walked options 1 log result) : IsWalk options log result where
  bounded := by
    have hlength := h.length_le (by decide)
    change log.length + 1 ≤ 1000 + 1 at hlength
    omega
  starts := by
    obtain ⟨answer, hhead⟩ := h.head?
    rw [hhead]
    exact number?_at options 1 answer
  leads := h.leads (by decide)
  ends := h.ends (by decide)
  size x hx := by
    obtain ⟨n, hoptions⟩ := h.asked x hx
    rw [hoptions, page_at]
  others x hx := by
    obtain ⟨n, hoptions⟩ := h.asked x hx
    rw [hoptions, withPage_at]

end Walked

/-- Everything before the last fetch was answered, since it led on. -/
theorem exists_answers {log : List (Fetched ο ι π)} (hleads : log.IsChain Leads) {x : Fetched ο ι π}
    (hlast : log.getLast? = some x) {page : Page ι π} (hx : x.answer = .ok page) :
    ∃ pages : List (Page ι π), log.map Fetched.answer = pages.map .ok := by
  induction log with
  | nil => cases hlast
  | cons y log ih =>
    cases log with
    | nil =>
      cases hlast
      exact ⟨[page], congrArg (List.cons · []) hx⟩
    | cons z log =>
      obtain ⟨hyz, hrest⟩ := List.isChain_cons_cons.1 hleads
      obtain ⟨pages, hpages⟩ := ih hrest (by rwa [List.getLast?_cons_cons] at hlast)
      obtain ⟨answered, _, _, hy, -⟩ := hyz
      exact ⟨answered :: pages, by rw [List.map_cons, hpages, hy, List.map_cons]⟩

/-- **A walk that succeeds has all of its pages**, and gives what is on them. -/
theorem IsWalk.exists_pages {options : ο} {log : List (Fetched ο ι π)} {items : List ι}
    (h : IsWalk options log (.ok items)) :
    ∃ pages : List (Page ι π), log.map Fetched.answer = pages.map .ok ∧ items = pages.flatMap Page.items := by
  obtain ⟨x, hlast, -, hresult⟩ := h.ends
  cases hx : x.answer with
  | error e =>
    rw [hx] at hresult
    cases hresult
  | ok page =>
    rw [hx] at hresult
    cases hresult
    obtain ⟨pages, hpages⟩ := exists_answers h.leads hlast hx
    refine ⟨pages, hpages, ?_⟩
    have hitems := congrArg (List.flatMap fun answer : Except ApiError (Page ι π) =>
      match answer with
      | .ok page => page.items
      | .error _ => []) hpages
    rw [List.flatMap_map, List.flatMap_map] at hitems
    exact hitems

/-! ## 4. Walks -/

/-- **A walk ends whatever it is answered**, with at most a thousand fetches that a caller
    can foresee from the answers, and gives all items in order or the first error. -/
theorem collectAll_isWalk [LawfulPaginated ο] (fetch : ο → σ → Result σ (Page ι π)) (options : ο)
    (s : σ) : ∃ log result s', collectAll fetch options s = (result, s') ∧
      collectAll (remembering fetch) options (s, []) = (result, s', log) ∧
      IsWalk options log result := by
  obtain ⟨log, result, s', hwalked, hcollect, hlog⟩ := collectFrom_walked fetch options 1 [] s
  have hresult : result.map ([] ++ ·) = result := by
    cases result <;> rfl
  rw [hresult] at hcollect hlog
  exact ⟨log, result, s', hcollect, hlog [], hwalked.isWalk⟩

/-- Someone who answers with the number of the question, and leads from the first page to
    the thousandth and from there out of bounds. -/
def leaping (_ : Workspaces.ListOptions) (asked : Nat) : Result Nat (Page Nat Neighbours) :=
  (.ok ⟨[asked], ⟨0, none, if asked = 0 then some 1000 else some 4294967295⟩⟩, asked + 1)

/-- A walk that is led past the last page is over, wherever its options stood. -/
theorem two_leaps :
    let o : Workspaces.ListOptions := { page := ⟨some 42, none⟩, search := some "web" }
    LawfulPaginated Workspaces.ListOptions ∧
      ∃ log, collectAll (remembering leaping) o (0, []) = (.ok [0, 1], 2, log) ∧
        log.map Fetched.number? = [some 1, some 1000] ∧ IsWalk o log (.ok [0, 1]) := by
  intro o
  obtain ⟨log, result, s', -, hlog, hwalk⟩ := collectAll_isWalk leaping o 0
  let asked (number n : Nat) : Fetched Workspaces.ListOptions Nat Neighbours :=
    ⟨at_ o number, (leaping o n).1⟩
  have hfirst : collectFrom (remembering leaping) o 1 [] (0, []) =
      collectFrom (remembering leaping) o 1000 [0] (1, [asked 1 0]) := by
    rw [collectFrom]
    rfl
  have hsecond : collectFrom (remembering leaping) o 1000 [0] (1, [asked 1 0]) =
      (.ok [0, 1], 2, [asked 1 0, asked 1000 1]) := by
    rw [collectFrom]
    rfl
  have hrun : collectAll (remembering leaping) o (0, []) =
      (.ok [0, 1], 2, [asked 1 0, asked 1000 1]) := hfirst.trans hsecond
  rw [hrun] at hlog
  cases hlog
  exact ⟨inferInstance, _, hrun, rfl, hwalk⟩

end Walk
end TerraformCloud
