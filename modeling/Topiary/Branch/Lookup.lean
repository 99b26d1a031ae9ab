import Std.Data.HashMap
import Topiary.Branch.Traversal
import Topiary.Fault

set_option autoImplicit false

/-!
# Finding branches by id

A search takes the first branch with an id in the order of the walk; the index by id
keeps the last one. The two agree where no id repeats.
-/

namespace Topiary.Branch

variable {α : Type}

def find? (tree : Branch α) (id : String) : Option (Branch α) :=
  tree.traverse.find? fun branch => branch.id == id

/-- Every id of a tree with the last branch that has it. -/
def byId (tree : Branch α) : Std.HashMap String (Branch α) :=
  tree.traverse.foldl (fun entries branch => entries.insert branch.id branch) ∅

/-- The branch that the segment with the given id names as its parent. There is none for an
unknown id, for a segment without a parent and for a parent outside the tree. A parent that
cannot be looked up is a fault. -/
def parentOf? (tree : Branch α) (id : String) : Except Fault (Option (Branch α)) :=
  let entries := tree.byId
  match entries[id]? with
  | none => .ok none
  | some branch =>
    match branch.segment.parentId with
    | .text parentId => .ok entries[parentId]?
    | .list _ | .dict _ => .error (.notAKey branch.segment.parentId)
    | _ => .ok none

/-- The top of a tree with the branches of the given ids on it, in that order and as often as
they are named. -/
def withBranches (tree : Branch α) (ids : List String) : Except Fault (Branch α) :=
  let entries := tree.byId
  let chosen (id : String) : Except Fault (Branch α) :=
    match entries[id]? with
    | some branch => .ok branch
    | none => .error (.unknownSegment id)
  (ids.mapM chosen).map tree.carrying

end Topiary.Branch
