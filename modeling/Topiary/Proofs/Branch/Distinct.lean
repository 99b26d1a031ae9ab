import Mathlib.Data.List.Flatten
import Mathlib.Data.List.Nodup
import Topiary.Branch.Document
import Topiary.Proofs.Branch.Recursion

set_option autoImplicit false

/-!
# Trees without repeated ids

Ids name the segments of a tree where no two of them agree. What grows from one branch
and what grows from its neighbours then share no id.
-/

namespace Topiary

variable {α β : Type}

namespace Branch

def DistinctIds (tree : Branch α) : Prop :=
  (tree.traverse.map Branch.id).Nodup

instance (tree : Branch α) : Decidable tree.DistinctIds :=
  decidable_of_iff (tree.preorder.map Branch.id).Nodup (by rw [DistinctIds, traverse_eq_preorder])

def idSet (tree : Branch α) : IdSet :=
  IdSet.ofIds (tree.traverse.map Branch.id)

theorem mem_idSet_iff {tree : Branch α} {id : String} :
    id ∈ tree.idSet ↔ ∃ branch ∈ tree.preorder, branch.id = id := by
  rw [idSet, IdSet.mem_ofIds, traverse_eq_preorder, List.mem_map]

theorem id_mem_idSet {tree branch : Branch α} (member : branch ∈ tree.preorder) :
    branch.id ∈ tree.idSet :=
  mem_idSet_iff.mpr ⟨branch, member, rfl⟩

def idsOfAll (branches : List (Branch α)) : List String :=
  (preorderAll branches).map Branch.id

@[simp] theorem idsOfAll_nil : idsOfAll ([] : List (Branch α)) = [] := by
  simp [idsOfAll, preorderAll]

theorem idsOfAll_cons (branch : Branch α) (rest : List (Branch α)) :
    idsOfAll (branch :: rest) = branch.id :: (idsOfAll branch.children ++ idsOfAll rest) := by
  simp [idsOfAll, preorderAll, preorder_eq branch]

theorem idsOfAll_append (first second : List (Branch α)) :
    idsOfAll (first ++ second) = idsOfAll first ++ idsOfAll second := by
  simp [idsOfAll, preorderAll_append]

theorem distinctIds_iff (tree : Branch α) : tree.DistinctIds ↔ (idsOfAll [tree]).Nodup := by
  simp [DistinctIds, idsOfAll, preorderAll, traverse_eq_preorder]

theorem idsOfAll_perm {first second : List (Branch α)} (same : first.Perm second) :
    (idsOfAll first).Perm (idsOfAll second) := by
  simp only [idsOfAll, preorderAll_eq_flatMap]
  exact (same.flatMap_right preorder).map Branch.id

theorem idsOfAll_sublist {first second : List (Branch α)} (fewer : first.Sublist second) :
    (idsOfAll first).Sublist (idsOfAll second) := by
  simp only [idsOfAll, preorderAll_eq_flatMap]
  exact (fewer.flatMap preorder).map Branch.id

theorem map_id_sublist (branches : List (Branch α)) :
    (branches.map Branch.id).Sublist (idsOfAll branches) := by
  induction branches with
  | nil => simp
  | cons branch rest ih =>
      rw [idsOfAll_cons, List.map_cons]
      exact (ih.trans (List.sublist_append_right _ _)).cons_cons _

theorem DistinctIds.map {tree : Branch α} (distinct : tree.DistinctIds) (f : α → β) :
    (tree.map f).DistinctIds := by
  rw [DistinctIds, traverse_eq_preorder, preorder_map, List.map_map]
  have sameIds : Branch.id ∘ Branch.map f = Branch.id := funext fun branch => id_map f branch
  rwa [sameIds, ← traverse_eq_preorder]

/-! ## A tree with a fork -/

def unextended (id : String) (parentId : Value) (children : List (Branch Nat)) : Branch Nat :=
  .node ⟨id, parentId, ⟨0, 0, 0⟩, ⟨0, 0, 0⟩, 0⟩ children

/-- A small tree in which a segment with two children has a sibling. -/
def fork : Branch Nat :=
  unextended "root" .null [
    unextended "root-0" (.text "root") [
      unextended "root-0-0" (.text "root-0") [unextended "root-0-0-0" (.text "root-0-0") []],
      unextended "root-0-1" (.text "root-0") []],
    unextended "root-1" (.text "root") []]

end Branch

/-! ## Entries -/

namespace Entry

def id (entry : Entry α) : String :=
  entry.segment.id

theorem map_segment_ofBranch (branches : List (Branch α)) :
    (branches.map ofBranch).map segment = branches.map Branch.segment := by
  rw [List.map_map]
  rfl

theorem map_id_ofBranch (branches : List (Branch α)) :
    (branches.map ofBranch).map id = branches.map Branch.id := by
  rw [List.map_map]
  rfl

end Entry

end Topiary
