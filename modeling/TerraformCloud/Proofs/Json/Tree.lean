/-
  TerraformCloud/Proofs/Json/Tree.lean
  ====================================
  **Induction over documents, and what functions on them do to lists.**

  A document is a tree whose containers hold lists of documents.  The functions on it
  are defined together with their counterparts for items and members; here each
  counterpart is said to be an ordinary function on lists, and one principle of
  induction (`Tree.induct`) serves all proofs about documents.
-/
import TerraformCloud.Json.Printer

namespace TerraformCloud.Json

/-! ## 1. Induction -/

/-- What holds of the leaves, and of a container of things it holds of, holds of every
    document. -/
theorem Tree.induct {σ ν : Type} {motive : Tree σ ν → Prop} (null : motive .null)
    (bool : ∀ b, motive (.bool b)) (number : ∀ n, motive (.number n))
    (string : ∀ s, motive (.string s))
    (array : ∀ items, (∀ v ∈ items, motive v) → motive (.array items))
    (object : ∀ members, (∀ m ∈ members, motive m.2) → motive (.object members)) (t : Tree σ ν) :
    motive t := by
  refine @Tree.rec σ ν motive (fun items => ∀ v ∈ items, motive v)
    (fun members => ∀ m ∈ members, motive m.2) (fun m => motive m.2)
    null bool number string array object ?_ ?_ ?_ ?_ (fun _ _ h => h) t
  · exact fun v h => absurd h List.not_mem_nil
  · intro v items hv hitems w hw
    rcases List.mem_cons.1 hw with rfl | hw
    · exact hv
    · exact hitems w hw
  · exact fun m h => absurd h List.not_mem_nil
  · intro m members hm hmembers k hk
    rcases List.mem_cons.1 hk with rfl | hk
    · exact hm
    · exact hmembers k hk

/-! ## 2. Numbers -/

mutual
/-- The numbers of a document, in their order. -/
def Tree.numbers {σ ν : Type} : Tree σ ν → List ν
  | .number n => [n]
  | .array items => numbersOfItems items
  | .object members => numbersOfMembers members
  | _ => []

def Tree.numbersOfItems {σ ν : Type} : List (Tree σ ν) → List ν
  | [] => []
  | v :: rest => numbers v ++ numbersOfItems rest

def Tree.numbersOfMembers {σ ν : Type} : List (σ × Tree σ ν) → List ν
  | [] => []
  | (_, v) :: rest => numbers v ++ numbersOfMembers rest
end

section Numbers

variable {σ ν : Type}

theorem Tree.numbersOfItems_eq (items : List (Tree σ ν)) :
    numbersOfItems items = items.flatMap numbers := by
  induction items with
  | nil => rw [numbersOfItems]; rfl
  | cons v items ih => rw [numbersOfItems, ih, List.flatMap_cons]

theorem Tree.numbersOfMembers_eq (members : List (σ × Tree σ ν)) :
    numbersOfMembers members = members.flatMap fun m => m.2.numbers := by
  induction members with
  | nil => rw [numbersOfMembers]; rfl
  | cons m members ih => rw [numbersOfMembers, ih, List.flatMap_cons]

theorem Tree.mem_numbers_array {n : ν} {items : List (Tree σ ν)} :
    n ∈ (Tree.array items : Tree σ ν).numbers ↔ ∃ v ∈ items, n ∈ v.numbers := by
  rw [numbers, numbersOfItems_eq, List.mem_flatMap]

theorem Tree.mem_numbers_object {n : ν} {members : List (σ × Tree σ ν)} :
    n ∈ (Tree.object members : Tree σ ν).numbers ↔ ∃ m ∈ members, n ∈ m.2.numbers := by
  rw [numbers, numbersOfMembers_eq, List.mem_flatMap]

end Numbers

/-! ## 3. Items and members -/

namespace Value

theorem writtenItems_eq (items : List Value) : writtenItems items = items.map written := by
  induction items with
  | nil => rw [writtenItems]; rfl
  | cons v items ih => rw [writtenItems, ih, List.map_cons]

theorem writtenMembers_eq (members : List (String × Value)) :
    writtenMembers members = members.map fun m => (some m.1, m.2.written) := by
  induction members with
  | nil => rw [writtenMembers]; rfl
  | cons m members ih => rw [writtenMembers, ih, List.map_cons]

@[simp] theorem written_array (items : List Value) :
    written (.array items) = .array (items.map written) := by
  rw [written, writtenItems_eq]

@[simp] theorem written_object (members : List (String × Value)) :
    written (.object members) = .object (members.map fun m => (some m.1, m.2.written)) := by
  rw [written, writtenMembers_eq]

theorem orderedItems_eq (items : List Value) : orderedItems items = items.map ordered := by
  induction items with
  | nil => rw [orderedItems]; rfl
  | cons v items ih => rw [orderedItems, ih, List.map_cons]

theorem orderedMembers_eq (members : List (String × Value)) :
    orderedMembers members = members.map fun m => (m.1, m.2.ordered) := by
  induction members with
  | nil => rw [orderedMembers]; rfl
  | cons m members ih => rw [orderedMembers, ih, List.map_cons]

@[simp] theorem ordered_array (items : List Value) :
    ordered (.array items) = .array (items.map ordered) := by
  rw [ordered, orderedItems_eq]

@[simp] theorem ordered_object (members : List (String × Value)) :
    ordered (.object members) = .object (orderMembers (members.map fun m => (m.1, m.2.ordered))) := by
  rw [ordered, orderedMembers_eq]

end Value

namespace Written

theorem values?_eq (depth : Nat) (items : List Written) :
    values? depth items = items.mapM (value? depth) := by
  induction items with
  | nil => rw [values?]; rfl
  | cons w items ih =>
    rw [values?.eq_def]
    dsimp only
    rw [ih, List.mapM_cons]
    cases value? depth w <;> cases items.mapM (value? depth) <;> rfl

/-- The value of one member, with its key. -/
def memberValue? (depth : Nat) (m : Option String × Written) : Option (String × Value) :=
  match m.1, value? depth m.2 with
  | some key, some v => some (key, v)
  | _, _ => none

theorem memberValues?_eq (depth : Nat) (members : List (Option String × Written)) :
    memberValues? depth members = members.mapM (memberValue? depth) := by
  induction members with
  | nil => rw [memberValues?]; rfl
  | cons m members ih =>
    obtain ⟨_ | key, w⟩ := m
    · rw [memberValues?]
      · rfl
      · intro _ _ _ heq
        cases heq
    · rw [memberValues?.eq_def]
      dsimp only
      rw [ih, List.mapM_cons, memberValue?]
      dsimp only
      cases value? depth w <;> cases members.mapM (memberValue? depth) <;> rfl

end Written
end TerraformCloud.Json
