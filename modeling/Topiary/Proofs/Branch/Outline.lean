import Topiary.Proofs.Branch.Pruning

set_option autoImplicit false

/-!
# Outlines

The outline of a tree is all of it but the coordinates. What an operation does with the
ids of a tree depends on the outline only: it is the same for trees with the same one.
-/

namespace Topiary

/-- What takes the place of a coordinate that is left out. -/
structure Blank where

namespace Branch

variable {α β : Type}

/-! ## Coordinates and ids -/

theorem ids_traverse_map (f : α → β) (tree : Branch α) :
    (tree.map f).traverse.map Branch.id = tree.traverse.map Branch.id := by
  rw [traverse_eq_preorder, traverse_eq_preorder, preorder_map, List.map_map]
  exact List.map_congr_left fun branch _ => id_map f branch

theorem find?_map (f : α → β) (tree : Branch α) (id : String) :
    (tree.map f).find? id = (tree.find? id).map (map f) := by
  rw [find?, find?, traverse_eq_preorder, traverse_eq_preorder, preorder_map, List.find?_map]
  congr 2
  funext branch
  rw [Function.comp_apply, id_map]

theorem idsFrom_map (f : α → β) (tree : Branch α) (id : String) :
    (tree.map f).idsFrom id = tree.idsFrom id := by
  rw [idsFrom, idsFrom, find?_map]
  cases tree.find? id with
  | none => rfl
  | some branch => exact congrArg IdSet.ofIds (ids_traverse_map f branch)

theorem unhidden_map (f : α → β) (gone : IdSet) (branches : List (Branch α)) :
    unhidden gone (branches.map (map f)) = (unhidden gone branches).map (map f) := by
  rw [unhidden, unhidden, List.filter_map]
  congr 2
  funext branch
  rw [Function.comp_apply, id_map]

theorem pruned_map (f : α → β) (gone : IdSet) (tree : Branch α) :
    (tree.map f).pruned gone = (tree.pruned gone).map f := by
  induction tree with
  | node segment children ih =>
      rw [map_node, pruned_node, pruned_node, map_node, unhidden_map, List.map_map, List.map_map]
      congr 1
      apply List.map_congr_left
      intro child member
      exact ih child (List.mem_of_mem_filter member)

theorem without_map {tree : Branch α} (distinct : tree.DistinctIds) (f : α → β) (gone : IdSet) :
    (tree.map f).without gone = (tree.without gone).map f := by
  rw [without_eq (distinct.map f), without_eq distinct, pruned_map]

/-! ## Outlines -/

def outline (tree : Branch α) : Branch Blank :=
  tree.map fun _ => ⟨⟩

theorem outline_map (f : α → β) (tree : Branch α) : (tree.map f).outline = tree.outline := by
  induction tree with
  | node segment children ih =>
      rw [outline, outline, map_node, map_node, map_node, List.map_map]
      congr 1
      exact List.map_congr_left ih

variable {tree : Branch α} {other : Branch β}

theorem idsFrom_congr (same : tree.outline = other.outline) (id : String) :
    tree.idsFrom id = other.idsFrom id := by
  have ids := congrArg (idsFrom · id) same
  rwa [outline, outline, idsFrom_map, idsFrom_map] at ids

theorem ids_without_congr (distinct : tree.DistinctIds) (otherDistinct : other.DistinctIds)
    (same : tree.outline = other.outline) (gone : IdSet) :
    (tree.without gone).traverse.map Branch.id = (other.without gone).traverse.map Branch.id := by
  have ids := congrArg (fun outline => (outline.without gone).traverse.map Branch.id) same
  simp only [outline, without_map distinct, without_map otherDistinct, ids_traverse_map] at ids
  exact ids

end Branch

end Topiary
