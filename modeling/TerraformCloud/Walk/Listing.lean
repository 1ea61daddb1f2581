/-
  TerraformCloud/Walk/Listing.lean
  ================================
  **All resources of a list of the service.**
-/
import TerraformCloud.Service
import TerraformCloud.Walk

namespace TerraformCloud.Listing

variable {σ : Type}

/-- The resources on all pages of a list, in order.  Which page the list stands at does
    not matter. -/
def collect (link : Link σ) (c : Client) (kind : Kind) (l : Listing) (s : σ) :
    Result σ (List (Resource kind.Attributes)) :=
  Walk.collectAll (fetch link c kind) l s

end TerraformCloud.Listing
