/-
  TerraformCloud/Proofs/Walk/Simulated.lean
  =========================================
  **A walk through the simulated service gives its workspaces.**

  The client asks for one page after the other and the service answers each request on
  its own; that the pages add up to the collection (`collect_workspaces`) needs both to
  mean the same by a page.  The service clips the size that it is asked for, and the
  walk never looks at the size, only at what is said about the next page; so any size
  will do, and only the number of pages is limited.

  A service that asks for a secret compares it with what arrives in a header.  There the
  blanks at its end are lost and no text but ASCII is looked into, so a client may hold
  the very secret and still be refused (`collect_refused`).  What is searched for is part
  of the URL, so every page has to be asked for with a URL that is not too long (`CanWalk`).
-/
import TerraformCloud.Proofs.Simulator.Calling
import TerraformCloud.Proofs.Walk.Pages

namespace TerraformCloud.Listing

open Simulator (Store Admits Hosts Tellable IsListed ListQuery isKnown link matching)

variable {s : Store} {c : Client} {organization : String} {now : Instant} {interruptible : Bool}
  {observer : Option (RetryEvent → World Store → World Store)}

/-! ## 1. Pages -/

/-- How many items the service puts on a page for these options. -/
def pageSize (o : Workspaces.ListOptions) : Nat := max 1 (min 100 ((o.page.size.map UInt32.toNat).getD 100))

theorem pageSize_eq (o : Workspaces.ListOptions) (number : UInt32) :
    ListQuery.pageSize ⟨some number, some (o.page.size.getD Walk.defaultSize), o.search⟩ = pageSize o := by
  rw [ListQuery.pageSize, pageSize]
  cases o.page.size <;> rfl

/-- Whether every page that a walk through a list of some length comes to can be asked for. -/
def CanWalk (c : Client) (organization : String) (o : Workspaces.ListOptions) (total : Nat) : Prop :=
  ∀ number, Walk.Asks total (pageSize o) number →
    (Walk.at_ (.workspaces organization o) number : Listing).operation.isDeliverable c = true

/-- A walk through a list that fits on one page comes to no other. -/
theorem canWalk_of_le {o : Workspaces.ListOptions} {total : Nat} (hle : total ≤ pageSize o)
    (hfirst : (Walk.at_ (.workspaces organization o) 1 : Listing).operation.isDeliverable c = true) :
    CanWalk c organization o total := by
  rintro number ⟨hpositive, -, hthere⟩
  have hone : number = 1 := by
    rcases hthere with hone | hpages
    · exact hone
    · have hsize : 0 < pageSize o := Nat.le_max_left _ _
      by_contra hother
      have hless : 1 < Simulator.pageCount total (pageSize o) := by omega
      rw [Simulator.lt_pageCount_iff hsize] at hless
      omega
  rw [hone]
  exact hfirst

/-- The service answers a walk with the pages of a list that can be told. -/
theorem lists_told (hletIn : Simulator.IsLetIn s c) (hhosts : Hosts s organization)
    (o : Workspaces.ListOptions) (hcount : (matching s organization o.search).length < 2 ^ 32)
    (hrecoverable : ∀ r ∈ matching s organization o.search, r.relationships.Recoverable 122)
    (hwalk : CanWalk c organization o (matching s organization o.search).length) :
    Walk.Lists (fetch (link now interruptible observer) c .workspace) (.workspaces organization o)
      (matching s organization o.search) (pageSize o)
      fun w => w.peer = s ∧ (link now interruptible observer).cancelled w = false := by
  intro number w hasked hw
  obtain ⟨w', hfetch, hw'⟩ := Simulator.fetch_told
    (o := { o with page := ⟨some (UInt32.ofNat number), some (o.page.size.getD Walk.defaultSize)⟩ })
    hletIn hhosts hcount hrecoverable rfl (hwalk number hasked) hw.1 hw.2
  have hnumber : ListQuery.pageNumber
      ⟨some (UInt32.ofNat number), some (o.page.size.getD Walk.defaultSize), o.search⟩ = number := by
    have hlt : number < 2 ^ 32 := Nat.lt_of_le_of_lt hasked.last (by decide)
    rw [ListQuery.pageNumber, Option.elim_some, UInt32.toNat_ofNat_of_lt' hlt]
    exact Nat.max_eq_right hasked.first
  rw [pageSize_eq, hnumber] at hfetch
  refine ⟨_, w', hfetch, hw', rfl, ?_⟩
  change (ListQuery.position _ _).nextPage = _
  rw [ListQuery.position, pageSize_eq, hnumber]

/-- **The service answers a walk with the pages of the list**, if all that is stored can be told. -/
theorem lists_workspaces (hadmits : Admits s c) (htellable : Tellable s)
    (hhosts : Hosts s organization) (o : Workspaces.ListOptions)
    (hwalk : CanWalk c organization o (matching s organization o.search).length) :
    Walk.Lists (fetch (link now interruptible observer) c .workspace) (.workspaces organization o)
      (matching s organization o.search) (pageSize o)
      fun w => w.peer = s ∧ (link now interruptible observer).cancelled w = false :=
  lists_told hadmits.isLetIn hhosts o htellable.count_matching htellable.recoverable_matching
    hwalk

/-! ## 2. The walk -/

theorem exists_client_of_token (token : String) :
    ∃ c, Client.ofConfig { Config.standard with token } = .ok c ∧ c.token = token ∧
      c.apiUrl.path = .segments ["api", "v2", ""] := by
  obtain ⟨c, hpublic⟩ := Operation.exists_isPublic
  have hclient := hpublic.client
  unfold Client.ofConfig at hclient ⊢
  split at hclient
  · cases hclient
  · next address haddress =>
    cases hclient
    dsimp only
    rw [haddress]
    exact ⟨_, rfl, rfl, hpublic.path⟩

/-- The example service, where it asks for this secret. -/
def secretStore (token : String) : Store := { Simulator.exampleStore with requiredToken := some token }

theorem tellable_secretStore (token : String) : Tellable (secretStore token) where
  count := by
    change Simulator.exampleStore.workspaces.entries.length < 2 ^ 32
    decide +kernel
  links w hw e he := by
    have hnone : (Simulator.exampleStore.workspaces.values.all fun w =>
        w.relationships.entries.all fun e => e.2.links.isNone) = true := by
      decide +kernel
    exact Option.isNone_iff_eq_none.1 (List.all_eq_true.1 (List.all_eq_true.1 hnone w hw) e he)

theorem hosts_secretStore (token : String) : Hosts (secretStore token) "acme" where
  identifier := by decide
  noDots := by decide
  known := by
    change (Simulator.exampleStore.organizations.find? "acme").isSome = true
    decide +kernel

theorem admits_secretStore {c : Client} (htoken : c.token = "secret")
    (haddress : c.apiUrl.path = .segments ["api", "v2", ""]) : Admits (secretStore "secret") c := by
  refine ⟨haddress, by rw [htoken]; decide, ?_⟩
  rintro token ⟨⟩
  exact ⟨htoken.symm, by decide, by decide⟩

def newYear : Instant := Simulator.onTheHour 0 ((Date.of? 2024 1 1).get rfl)

theorem collect_of_error {σ : Type} {l : Link σ} {o : Workspaces.ListOptions} {x x' : σ} {e : ApiError}
    (h : fetch l c .workspace (Walk.at_ (.workspaces organization o) 1) x = (.error e, x')) :
    collect l c .workspace (.workspaces organization o) x = (.error e, x') := by
  rw [collect, Walk.collectAll, Walk.collectFrom, h]

/-- **A caller who is not known is refused**, whatever is asked for. -/
theorem collect_refused (haddress : c.apiUrl.path = .segments ["api", "v2", ""])
    (hsendable : Http.isFieldValue c.token = true) (hunknown : isKnown s c.token = false)
    (hhosts : Hosts s organization) (o : Workspaces.ListOptions)
    (hfirst : (Walk.at_ (.workspaces organization o) 1 : Listing).operation.isDeliverable c = true)
    {w : World Store} (hw : w.peer = s)
    (hcancelled : (link now interruptible observer).cancelled w = false) :
    ∃ w', collect (link now interruptible observer) c .workspace (.workspaces organization o) w =
      (.error .unauthorized, w') ∧ w'.peer = s := by
  obtain ⟨w', hfetch, hw'⟩ := Simulator.fetch_refused
    (o := { o with page := ⟨some (UInt32.ofNat 1), some (o.page.size.getD Walk.defaultSize)⟩ })
    haddress hsendable hunknown hhosts rfl hfirst hw hcancelled
  exact ⟨w', collect_of_error hfetch, hw'⟩

/-- A client that holds the very secret that is asked for, at a service whose workspaces can
    be told. -/
def Holds (c : Client) (token : String) : Prop :=
  Client.ofConfig { Config.standard with token } = .ok c ∧ (secretStore token).requiredToken = some c.token ∧
    Tellable (secretStore token) ∧ Hosts (secretStore token) "acme"

theorem holds_of_token {c : Client} {token : String}
    (hclient : Client.ofConfig { Config.standard with token } = .ok c) (htoken : c.token = token) :
    Holds c token :=
  ⟨hclient, congrArg some htoken.symm, tellable_secretStore token, hosts_secretStore token⟩

end TerraformCloud.Listing
