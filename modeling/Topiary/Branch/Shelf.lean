import Std.Data.HashMap
import Topiary.Branch.Basic
import Topiary.Fault

set_option autoImplicit false

/-!
# Shelves

A tree is put together from the bottom up through a shelf: every finished branch waits
on it under its id until its parent takes it. Each branch on the shelf is taken once.
-/

namespace Topiary.Branch

variable {α : Type}

/-- The finished branches that wait for their parents, by id. -/
abbrev Shelf (α : Type) := Std.HashMap String (Branch α)

def takeChild (taken : Array (Branch α) × Shelf α) (child : Branch α) :
    Array (Branch α) × Shelf α :=
  match taken.2[child.id]? with
  | some finished => (taken.1.push finished, taken.2.erase child.id)
  | none => taken

/-- Takes the branches with the given ids from the shelf, in order, behind those taken before.
An id that is not on the shelf is a fault. -/
def claimAll (claimed : Array (Branch α)) (shelf : Shelf α) :
    List String → Except Fault (Array (Branch α) × Shelf α)
  | [] => .ok (claimed, shelf)
  | id :: rest =>
    match shelf[id]? with
    | some finished => claimAll (claimed.push finished) (shelf.erase id) rest
    | none => .error (.unknownSegment id)

end Topiary.Branch
