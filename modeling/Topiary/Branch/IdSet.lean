import Std.Data.ExtTreeSet

set_option autoImplicit false

/-!
# Sets of ids

A set of ids is determined by its members; listed, it is in ascending order of code
points without repetition.
-/

namespace Topiary

abbrev IdSet := Std.ExtTreeSet String compare

namespace IdSet

def ofIds (ids : List String) : IdSet :=
  Std.ExtTreeSet.ofList ids compare

theorem mem_ofIds (ids : List String) (id : String) : id ∈ ofIds ids ↔ id ∈ ids := by
  simp [ofIds]

theorem ofIds_toList (ids : IdSet) : ofIds ids.toList = ids := by
  apply Std.ExtTreeSet.ext_mem
  intro id
  rw [mem_ofIds, Std.ExtTreeSet.mem_toList]

end IdSet

end Topiary
