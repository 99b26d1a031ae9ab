import Mathlib.Data.List.Basic
import Topiary.Branch.Pruning

set_option autoImplicit false

/-!
# Recursion over branches

The children of a branch form a list, so a statement about all branches is proved for a
node from the same statement about each of its children. The recursive functions are
stated here in terms of the list functions that they amount to.
-/

namespace Topiary.Branch

variable {α β : Type}

/-- What holds of a node whenever it holds of all its children holds of every branch. -/
@[elab_as_elim, induction_eliminator]
theorem induction {motive : Branch α → Prop}
    (node : ∀ (segment : Segment α) (children : List (Branch α)),
      (∀ child ∈ children, motive child) → motive (.node segment children))
    (branch : Branch α) : motive branch :=
  match branch with
  | .node segment children =>
      node segment children fun child _ => induction node child
termination_by sizeOf branch

/-- What holds of no pending branches, and of a list of pending branches whenever it holds after
the first of them has given way to its children, holds of every list of pending branches. -/
theorem pending_induction {motive : List (Branch α) → Prop} (nil : motive [])
    (visit : ∀ (branch : Branch α) (rest : List (Branch α)),
      motive (branch.children ++ rest) → motive (branch :: rest))
    (pending : List (Branch α)) : motive pending :=
  match pending with
  | [] => nil
  | branch :: rest => visit branch rest (pending_induction nil visit (branch.children ++ rest))
termination_by sizeAll pending
decreasing_by
  rw [sizeAll_append, sizeAll_cons, size_eq]; omega

/-! ## The order of the walk -/

theorem preorderAll_eq_flatMap (branches : List (Branch α)) :
    preorderAll branches = branches.flatMap preorder := by
  induction branches with
  | nil => simp [preorderAll]
  | cons branch rest ih => simp [preorderAll, ih]

/-- A walk goes on with the children of a branch before the later branches. -/
theorem preorderAll_cons (branch : Branch α) (rest : List (Branch α)) :
    preorderAll (branch :: rest) = branch :: preorderAll (branch.children ++ rest) := by
  rw [preorderAll, preorder_eq, preorderAll_append, List.cons_append]

theorem preorderAll_single (tree : Branch α) : preorderAll [tree] = tree.preorder := by
  simp [preorderAll]

@[simp] theorem preorder_node (segment : Segment α) (children : List (Branch α)) :
    (node segment children).preorder = node segment children :: children.flatMap preorder := by
  rw [preorder, preorderAll_eq_flatMap]

theorem self_mem_preorder (branch : Branch α) : branch ∈ branch.preorder := by
  rw [preorder_eq]
  exact List.mem_cons_self

theorem mem_preorder_of_child {branch child descendant : Branch α}
    (member : child ∈ branch.children) (below : descendant ∈ child.preorder) :
    descendant ∈ branch.preorder := by
  rw [preorder_eq, preorderAll_eq_flatMap]
  exact List.mem_cons_of_mem _ (List.mem_flatMap.mpr ⟨child, member, below⟩)

theorem mem_preorder_trans {branch middle descendant : Branch α}
    (member : middle ∈ branch.preorder) (below : descendant ∈ middle.preorder) :
    descendant ∈ branch.preorder := by
  induction branch with
  | node segment children ih =>
      rw [preorder_node, List.mem_cons, List.mem_flatMap] at member
      rcases member with rfl | ⟨child, childMember, middleMember⟩
      · exact below
      · exact mem_preorder_of_child childMember (ih child childMember middleMember)

/-! ## Coordinates -/

theorem mapAll_eq_map (f : α → β) (branches : List (Branch α)) :
    mapAll f branches = branches.map (map f) := by
  induction branches with
  | nil => simp [mapAll]
  | cons branch rest ih => simp [mapAll, ih]

@[simp] theorem map_node (f : α → β) (segment : Segment α) (children : List (Branch α)) :
    (node segment children).map f = node (segment.map f) (children.map (map f)) := by
  rw [map, mapAll_eq_map]

@[simp] theorem segment_map (f : α → β) (branch : Branch α) :
    (branch.map f).segment = branch.segment.map f := by
  cases branch; simp

@[simp] theorem children_map (f : α → β) (branch : Branch α) :
    (branch.map f).children = branch.children.map (map f) := by
  cases branch; simp

@[simp] theorem id_map (f : α → β) (branch : Branch α) : (branch.map f).id = branch.id := by
  cases branch; simp [Segment.map]

theorem preorder_map (f : α → β) (branch : Branch α) :
    (branch.map f).preorder = branch.preorder.map (map f) := by
  induction branch with
  | node segment children ih =>
      rw [map_node, preorder_node, preorder_node, List.map_cons, map_node, List.flatMap_map,
        List.map_flatMap, List.flatMap_congr ih]

/-! ## Pruning -/

theorem prunedAll_eq_map (gone : IdSet) (branches : List (Branch α)) :
    prunedAll gone branches = (unhidden gone branches).map (pruned gone) := by
  induction branches with
  | nil => simp [prunedAll, unhidden]
  | cons branch rest ih =>
      by_cases hidden : gone.contains branch.id = true
      · simp [prunedAll, unhidden, hidden, ih]
      · simp [prunedAll, unhidden, hidden, ih]

@[simp] theorem pruned_node (gone : IdSet) (segment : Segment α) (children : List (Branch α)) :
    (node segment children).pruned gone =
      node segment ((unhidden gone children).map (pruned gone)) := by
  rw [pruned, prunedAll_eq_map]

@[simp] theorem segment_pruned (gone : IdSet) (branch : Branch α) :
    (branch.pruned gone).segment = branch.segment := by
  cases branch; simp

@[simp] theorem id_pruned (gone : IdSet) (branch : Branch α) :
    (branch.pruned gone).id = branch.id := by
  cases branch; simp

end Topiary.Branch
