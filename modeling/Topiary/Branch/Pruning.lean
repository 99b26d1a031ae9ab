import Topiary.Branch.Lookup
import Topiary.Branch.Shelf

set_option autoImplicit false

/-!
# Pruning

Pruning a branch takes it away with all that grows from it. The ids to be taken away
form a set; what remains is found from the top down and put together from the bottom
up, through a shelf on which every finished branch waits under its id until its
parent takes it. Each branch on the shelf is taken once, so a tree in which ids repeat
gains no wood by pruning.
-/

namespace Topiary.Branch

variable {α : Type}

/-- The ids of the first branch with the given id and of all that grows from it; none if the
id is unknown. -/
def idsFrom (tree : Branch α) (id : String) : IdSet :=
  match tree.find? id with
  | some branch => IdSet.ofIds (branch.traverse.map Branch.id)
  | none => ∅

/-! ## The recursive rule -/

mutual

/-- A branch with all its fields, and only those children, pruned in turn, whose ids are not
to be taken away. -/
def pruned (gone : IdSet) : Branch α → Branch α
  | .node segment children => .node segment (prunedAll gone children)

def prunedAll (gone : IdSet) : List (Branch α) → List (Branch α)
  | [] => []
  | branch :: rest =>
    if gone.contains branch.id then prunedAll gone rest
    else branch.pruned gone :: prunedAll gone rest

end

/-! ## Putting the rest together -/

/-- Finds the branches that stay, the last one found first. The last pending branch is visited
before its siblings. -/
def survivorsFrom (gone : IdSet) (pending found : List (Branch α)) : List (Branch α) :=
  match pending with
  | [] => found
  | branch :: rest =>
    survivorsFrom gone ((unhidden gone branch.children).reverse ++ rest) (branch :: found)
termination_by sizeAll pending
decreasing_by
  have kept := sizeAll_filter_le (fun child => !gone.contains child.id) branch.children
  rw [sizeAll_append, sizeAll_reverse, sizeAll_cons, size_eq branch, unhidden]
  omega

/-- Takes the branches with the ids of all children of a branch from the shelf, in order, and
puts them on its segment. -/
def adopt (shelf : Shelf α) (branch : Branch α) : Branch α × Shelf α :=
  let (taken, rest) := branch.children.foldl takeChild (#[], shelf)
  (branch.carrying taken.toList, rest)

def shelve (shelf : Shelf α) (branch : Branch α) : Shelf α :=
  let (finished, rest) := adopt shelf branch
  rest.insert branch.id finished

def rebuilt (tree : Branch α) (gone : IdSet) : Branch α :=
  let survivors := survivorsFrom gone (unhidden gone tree.children).reverse []
  (adopt (survivors.foldl shelve ∅) tree).1

/-- A tree without the branches whose ids are in the set and without all that grows from them.
The top always stays, and every segment that stays keeps its fields. -/
def without (tree : Branch α) (gone : IdSet) : Branch α :=
  if gone.isEmpty then tree.carrying tree.children else tree.rebuilt gone

end Topiary.Branch
