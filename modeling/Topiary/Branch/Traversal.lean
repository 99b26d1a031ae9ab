import Topiary.Branch.Basic
import Topiary.Branch.IdSet

set_option autoImplicit false

/-!
# Traversal

Walks over a tree keep the branches still to be visited in a list, so the depth of a
tree costs no recursion. Beside each walk stands the recursive order that it yields.
-/

namespace Topiary.Branch

variable {α : Type}

/-! ## All branches -/

mutual

/-- A branch, then the orders of its children one after another. -/
def preorder : Branch α → List (Branch α)
  | .node segment children => .node segment children :: preorderAll children

def preorderAll : List (Branch α) → List (Branch α)
  | [] => []
  | branch :: rest => branch.preorder ++ preorderAll rest

end

/-- Visits the first pending branch and puts its children in front of the others. -/
def traverseFrom (pending : List (Branch α)) (visited : Array (Branch α)) : Array (Branch α) :=
  match pending with
  | [] => visited
  | branch :: rest => traverseFrom (branch.children ++ rest) (visited.push branch)
termination_by sizeAll pending
decreasing_by
  rw [sizeAll_append, sizeAll_cons, size_eq]; omega

def traverse (tree : Branch α) : List (Branch α) :=
  (traverseFrom [tree] #[]).toList

/-! ## Visible branches -/

mutual

/-- A branch, then what its children show unless they are hidden. -/
def shown (hidden : IdSet) : Branch α → List (Branch α)
  | .node segment children => .node segment children :: shownAll hidden children

/-- What several branches show, without the hidden ones and all that grows from them. -/
def shownAll (hidden : IdSet) : List (Branch α) → List (Branch α)
  | [] => []
  | branch :: rest =>
    (if hidden.contains branch.id then [] else branch.shown hidden) ++ shownAll hidden rest

end

def unhidden (hidden : IdSet) (branches : List (Branch α)) : List (Branch α) :=
  branches.filter fun branch => !hidden.contains branch.id

/-- Visits the first pending branch and puts its unhidden children in front of the others. -/
def visibleFrom (hidden : IdSet) (pending : List (Branch α)) (visited : Array (Branch α)) :
    Array (Branch α) :=
  match pending with
  | [] => visited
  | branch :: rest =>
    visibleFrom hidden (unhidden hidden branch.children ++ rest) (visited.push branch)
termination_by sizeAll pending
decreasing_by
  have kept := sizeAll_filter_le (fun child => !hidden.contains child.id) branch.children
  rw [sizeAll_append, sizeAll_cons, size_eq branch, unhidden]
  omega

/-- The branches below the top of a tree that neither are hidden nor grow from a hidden one.
The top itself is a placeholder and is not among them. -/
def visible (tree : Branch α) (hidden : IdSet) : List (Branch α) :=
  (visibleFrom hidden (unhidden hidden tree.children) #[]).toList

def descendants (tree : Branch α) : List (Branch α) :=
  tree.visible ∅

/-! ## The walk yields the recursive order -/

theorem preorder_eq (tree : Branch α) : tree.preorder = tree :: preorderAll tree.children := by
  cases tree; simp [preorder]

theorem preorderAll_append (first second : List (Branch α)) :
    preorderAll (first ++ second) = preorderAll first ++ preorderAll second := by
  induction first with
  | nil => simp [preorderAll]
  | cons branch rest inductionHypothesis => simp [preorderAll, inductionHypothesis]

theorem traverseFrom_eq (pending : List (Branch α)) (visited : Array (Branch α)) :
    (traverseFrom pending visited).toList = visited.toList ++ preorderAll pending := by
  fun_induction traverseFrom pending visited with
  | case1 visited => simp [preorderAll]
  | case2 visited branch rest inductionHypothesis =>
    rw [inductionHypothesis, preorderAll_append]
    simp [preorderAll, preorder_eq branch]

theorem traverse_eq_preorder (tree : Branch α) : tree.traverse = tree.preorder := by
  simp [traverse, traverseFrom_eq, preorderAll]

end Topiary.Branch
