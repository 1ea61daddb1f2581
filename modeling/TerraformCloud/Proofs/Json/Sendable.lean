/-
  TerraformCloud/Proofs/Json/Sendable.lean
  ========================================
  **Values that arrive as they were sent.**

  A value is sent with its members in order, as compact text.  Three things could be lost
  on the way: of a key that an object has twice only one is kept, nesting below a limit
  is refused, and not every number comes back.  A value with none of these
  (`Sendable`) is what the other side reads.
-/
import TerraformCloud.Proofs.Json.Ordered
import TerraformCloud.Proofs.Json.Reading

namespace TerraformCloud.Json

/-- A value that is nested at most `depth` deep, has no key twice, and whose numbers read
    back. -/
structure Sendable (v : Value) (depth : Nat) : Prop where
  distinct : v.Distinct
  depth_le : v.depth ≤ depth
  numbers : ∀ n ∈ v.numbers, n.ReadsBack

namespace Sendable

variable {v : Value} {depth : Nat}

theorem mono (h : Sendable v depth) {more : Nat} (hle : depth ≤ more) : Sendable v more :=
  ⟨h.distinct, Nat.le_trans h.depth_le hle, h.numbers⟩

theorem null : Sendable .null depth := ⟨trivial, Nat.zero_le _, fun _ h => absurd h List.not_mem_nil⟩

theorem bool (b : Bool) : Sendable (.bool b) depth :=
  ⟨trivial, Nat.zero_le _, fun _ h => absurd h List.not_mem_nil⟩

theorem string (s : String) : Sendable (.string s) depth :=
  ⟨trivial, Nat.zero_le _, fun _ h => absurd h List.not_mem_nil⟩

theorem nat {n : Nat} (h : n < 2 ^ 64) : Sendable (Value.nat n) depth := by
  refine ⟨trivial, Nat.zero_le _, fun x hx => ?_⟩
  rw [List.mem_singleton.1 hx]
  exact Number.readsBack_integer ⟨by omega, by omega⟩

theorem array {items : List Value} (h : ∀ v ∈ items, Sendable v depth) :
    Sendable (.array items) (depth + 1) where
  distinct := (Value.keys_array_iff items).2 fun v hv => (h v hv).distinct
  depth_le := Tree.depth_array_le_iff.2 ⟨Nat.succ_pos _, fun v hv => (h v hv).depth_le⟩
  numbers n hn := by
    obtain ⟨v, hv, hn⟩ := Tree.mem_numbers_array.1 hn
    exact (h v hv).numbers n hn

theorem object {members : List (String × Value)} (hkeys : (members.map (·.1)).Nodup)
    (h : ∀ m ∈ members, Sendable m.2 depth) : Sendable (.object members) (depth + 1) where
  distinct := (Value.keys_object_iff members).2 ⟨hkeys, fun m hm => (h m hm).distinct⟩
  depth_le := Tree.depth_object_le_iff.2 ⟨Nat.succ_pos _, fun m hm => (h m hm).depth_le⟩
  numbers n hn := by
    obtain ⟨m, hm, hn⟩ := Tree.mem_numbers_object.1 hn
    exact (h m hm).numbers n hn

/-- **The text of a sendable value is read as the value with its members in order.** -/
theorem parse?_ordered (h : Sendable v depth) :
    parse? (Utf8.encode v.ordered.compact) = some v.ordered.written :=
  parse?_compact v.ordered fun n hn => h.numbers n (Value.mem_numbers_of_ordered hn)

end Sendable
end TerraformCloud.Json
