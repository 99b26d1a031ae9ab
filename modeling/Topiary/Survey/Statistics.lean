import Topiary.Branch.Traversal
import Topiary.Survey.Summation

set_option autoImplicit false

/-!
# Statistics of a tree

Summary numbers of the drawn segments; the placeholder at the top is not counted.
-/

namespace Topiary

structure Statistics (α : Type) where
  segments : Nat
  tips : Nat
  /-- The greatest depth; a tree without segments has none. -/
  maxDepth : Option Int
  totalLength : α

namespace Statistics

variable {α : Type}

def ofBranches [Scalar α] (branches : List (Branch α)) : Statistics α :=
  { segments := branches.length
    tips := branches.countP Branch.isLeaf
    maxDepth := (branches.map fun branch => branch.segment.depth).max?
    totalLength := Summation.inHalves (branches.map fun branch => branch.segment.length) }

def ofTree [Scalar α] (tree : Branch α) : Statistics α :=
  ofBranches tree.descendants

end Statistics

end Topiary
