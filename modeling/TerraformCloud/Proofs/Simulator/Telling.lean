/-
  TerraformCloud/Proofs/Simulator/Telling.lean
  ============================================
  **What an answer tells is what was to be told.**

  A resource in an answer is read as the very resource (`toldOne_single`), and the items
  of a page are read as the items that were put on it (`mem_of_mem_toldPage`), also where
  the list is too long for its length to be told.  All it takes is that links come back, and
  resources that refer to an organization alone have none.
-/
import TerraformCloud.Proofs.Simulator.Serving

namespace TerraformCloud.Simulator

variable {kind : Kind}

theorem recoverable_ownedBy (organization : String) (depth : Nat) :
    (ownedBy organization).Recoverable depth := by
  intro e he v hv
  have hmem : e ∈ [(ownerName, Relationship.toOne (Attributes.type Organization) organization)] := he
  rw [List.mem_singleton.1 hmem] at hv
  cases hv

/-- The resource that an answer tells. -/
def toldOne (kind : Kind) (r : Http.Response) : Option (Resource kind.Attributes) :=
  r.body.bind fun body => (decodeOne kind.Attributes body).toOption

/-- The resources on the page that an answer tells. -/
def toldPage (kind : Kind) (r : Http.Response) : List (Resource kind.Attributes) :=
  (r.body.bind fun body => (decodeList kind.Attributes Pagination body).toOption).elim [] Page.items

theorem body_single (status : Http.Status) (r : Resource kind.Attributes) :
    (single status r).body = some (Body.ofData r.sent).bytes := rfl

/-- **A resource is told as it is.** -/
theorem toldOne_single (status : Http.Status) {r : Resource kind.Attributes}
    (hrs : r.relationships.Recoverable 123) : toldOne kind (single status r) = some r := by
  rw [toldOne, body_single, Option.bind_some, decodeOne_ofData hrs]
  rfl

theorem toldOne_workspace (status : Http.Status) {w : Resource Workspace} {organization : String}
    (h : w.relationships = ownedBy organization) : toldOne .workspace (single status w) = some w := by
  have hrs : w.relationships.Recoverable 123 := by
    rw [h]
    exact recoverable_ownedBy organization 123
  exact @toldOne_single .workspace status w hrs

theorem body_listing (items : List (Resource kind.Attributes)) (q : ListQuery) :
    ∃ more, (listing items q).body =
      some (Utf8.encode (sentList (pageItems items q.pageNumber q.pageSize) (some more)).ordered.compact) :=
  ⟨_, rfl⟩

/-- **Nothing is told on a page but what was put there.** -/
theorem mem_of_mem_toldPage {items : List (Resource kind.Attributes)} {q : ListQuery}
    (hrs : ∀ r ∈ items, r.relationships.Recoverable 122) {r : Resource kind.Attributes}
    (h : r ∈ toldPage kind (listing items q)) : r ∈ items := by
  have hpage : ∀ r ∈ pageItems items q.pageNumber q.pageSize, r ∈ items :=
    fun r hr => List.mem_of_mem_drop (List.mem_of_mem_take hr)
  obtain ⟨more, hbody⟩ := body_listing items q
  rw [toldPage, hbody, Option.bind_some] at h
  cases hread : decodeList kind.Attributes Pagination (Utf8.encode
      (sentList (pageItems items q.pageNumber q.pageSize) (some more)).ordered.compact) with
  | error e =>
    rw [hread] at h
    cases h
  | ok page =>
    rw [hread] at h
    apply hpage
    rwa [← items_of_decodeList (fun r hr => hrs r (hpage r hr)) hread]

end TerraformCloud.Simulator
