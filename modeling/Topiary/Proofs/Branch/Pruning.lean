import Topiary.Proofs.Branch.Shelves

set_option autoImplicit false

/-!
# Pruning follows the recursive rule

What remains of a tree is collected from the top down and put together from the bottom
up. While it is put together, exactly the pruned forms of the branches that have been
finished and not yet been taken wait on the shelf. In a tree without repeated ids every
branch therefore takes its own children, and the result is the recursive rule.
-/

namespace Topiary.Branch

variable {α : Type}

/-! ## Adoption -/

/-- Among the waiting branches a parent finds those of its children that stay. -/
private theorem foldl_takeChild {gone : IdSet} {children waiting : List (Branch α)}
    (taken : Array (Branch α)) {shelf : Shelf α}
    (holds : Shelf.Holds shelf ((unhidden gone children).map (pruned gone) ++ waiting))
    (distinct : (children.map Branch.id ++ waiting.map Branch.id).Nodup) :
    ∃ rest, children.foldl takeChild (taken, shelf) =
        ((taken.toList ++ (unhidden gone children).map (pruned gone)).toArray, rest) ∧
      Shelf.Holds rest waiting := by
  induction children generalizing taken shelf with
  | nil => exact ⟨shelf, by simp [unhidden], holds⟩
  | cons child children ih =>
      simp only [List.map_cons, List.cons_append, List.nodup_cons] at distinct
      have fresh : child.id ∉
          ((unhidden gone children).map (pruned gone) ++ waiting).map Branch.id := by
        intro member
        apply distinct.1
        rw [List.map_append, List.map_map, List.mem_append] at member
        rcases member with member | member
        · obtain ⟨sibling, siblingMember, same⟩ := List.mem_map.mp member
          rw [Function.comp_apply, id_pruned] at same
          exact List.mem_append_left _
            (same ▸ List.mem_map_of_mem (List.mem_of_mem_filter siblingMember))
        · exact List.mem_append_right _ member
      by_cases hidden : gone.contains child.id = true
      · have skipped : unhidden gone (child :: children) = unhidden gone children := by
          simp [unhidden, hidden]
        rw [skipped] at holds ⊢
        simp only [List.foldl_cons, takeChild, holds.missing fresh]
        exact ih taken holds distinct.2
      · have kept : unhidden gone (child :: children) = child :: unhidden gone children := by
          simp [unhidden, hidden]
        rw [kept, List.map_cons, List.cons_append] at holds
        have found : shelf[(child.pruned gone).id]? = some (child.pruned gone) :=
          holds.get (by simp)
        rw [id_pruned] at found
        have restHolds := holds.erase (by rwa [id_pruned])
        rw [id_pruned] at restHolds
        obtain ⟨rest, taking, waits⟩ := ih (taken.push (child.pruned gone)) restHolds distinct.2
        refine ⟨rest, ?_, waits⟩
        simp only [List.foldl_cons, takeChild, found, taking, kept]
        simp

private theorem adopt_eq {gone : IdSet} {branch : Branch α} {waiting : List (Branch α)}
    {shelf : Shelf α}
    (holds : Shelf.Holds shelf ((unhidden gone branch.children).map (pruned gone) ++ waiting))
    (distinct : (branch.children.map Branch.id ++ waiting.map Branch.id).Nodup) :
    ∃ rest, adopt shelf branch = (branch.pruned gone, rest) ∧ Shelf.Holds rest waiting := by
  obtain ⟨rest, taking, waits⟩ := foldl_takeChild #[] holds distinct
  refine ⟨rest, ?_, waits⟩
  cases branch with
  | node segment children =>
      simp only [children_node] at taking
      simp [adopt, taking, carrying]

private theorem holds_shelve {gone : IdSet} {branch : Branch α} {waiting : List (Branch α)}
    {shelf : Shelf α}
    (holds : Shelf.Holds shelf ((unhidden gone branch.children).map (pruned gone) ++ waiting))
    (distinct : (branch.children.map Branch.id ++ waiting.map Branch.id).Nodup)
    (fresh : branch.id ∉ waiting.map Branch.id) :
    Shelf.Holds (shelve shelf branch) (branch.pruned gone :: waiting) := by
  obtain ⟨rest, adopted, waits⟩ := adopt_eq holds distinct
  have shelved : Shelf.Holds (rest.insert (branch.pruned gone).id (branch.pruned gone))
      (branch.pruned gone :: waiting) := waits.insert (by rwa [id_pruned])
  rw [id_pruned] at shelved
  rwa [shelve, adopted]

/-! ## Putting the tree together -/

private theorem map_id_map_pruned (gone : IdSet) (branches : List (Branch α)) :
    (branches.map (pruned gone)).map Branch.id = branches.map Branch.id := by
  rw [List.map_map]
  exact List.map_congr_left fun branch _ => id_pruned gone branch

/-- When the survivors of the pending branches have been shelved, the pruned forms of the pending
branches wait on the shelf. Survivors found earlier are shelved later. -/
private theorem foldl_shelve_survivorsFrom (gone : IdSet) (pending found : List (Branch α))
    (distinct : (idsOfAll pending).Nodup) :
    ∃ shelf, (survivorsFrom gone pending found).foldl shelve ∅ = found.foldl shelve shelf ∧
      Shelf.Holds shelf (pending.map (pruned gone)) := by
  fun_induction survivorsFrom gone pending found with
  | case1 found => exact ⟨∅, rfl, .empty⟩
  | case2 found branch rest ih =>
      rw [idsOfAll_cons, List.nodup_cons, ← idsOfAll_append] at distinct
      have order : ((unhidden gone branch.children).reverse ++ rest).Perm
          (unhidden gone branch.children ++ rest) :=
        (List.reverse_perm _).append_right rest
      have fewer : (unhidden gone branch.children ++ rest).Sublist (branch.children ++ rest) :=
        List.filter_sublist.append_right rest
      obtain ⟨shelf, shelving, waits⟩ := ih
        ((idsOfAll_perm order).nodup_iff.mpr (distinct.2.sublist (idsOfAll_sublist fewer)))
      refine ⟨shelve shelf branch, shelving, ?_⟩
      rw [List.map_cons]
      apply holds_shelve
      · rw [← List.map_append]
        exact waits.perm (order.map _)
      · rw [map_id_map_pruned, ← List.map_append]
        exact distinct.2.sublist (map_id_sublist _)
      · rw [map_id_map_pruned]
        intro member
        apply distinct.1
        rw [idsOfAll_append]
        exact List.mem_append_right _ ((map_id_sublist rest).subset member)

/-- A tree without repeated ids that is put together anew follows the recursive rule, also for
ids that name no segment. -/
theorem rebuilt_eq_pruned {tree : Branch α} (distinct : tree.DistinctIds) (gone : IdSet) :
    tree.rebuilt gone = tree.pruned gone := by
  rw [distinctIds_iff, idsOfAll_cons, idsOfAll_nil, List.append_nil, List.nodup_cons] at distinct
  have order : (unhidden gone tree.children).reverse.Perm (unhidden gone tree.children) :=
    List.reverse_perm _
  have fewer : (unhidden gone tree.children).Sublist tree.children := List.filter_sublist
  obtain ⟨shelf, shelving, waits⟩ := foldl_shelve_survivorsFrom gone
    (unhidden gone tree.children).reverse []
    ((idsOfAll_perm order).nodup_iff.mpr (distinct.2.sublist (idsOfAll_sublist fewer)))
  have childrenWait :
      Shelf.Holds shelf ((unhidden gone tree.children).map (pruned gone) ++ []) := by
    simpa using waits.perm (order.map _)
  obtain ⟨rest, adopted, -⟩ := adopt_eq childrenWait
    (by simpa using distinct.2.sublist (map_id_sublist _))
  rw [rebuilt, shelving, List.foldl_nil, adopted]

/-! ## The recursive rule -/

theorem pruned_congr {tree : Branch α} {gone other : IdSet}
    (same : ∀ branch ∈ tree.preorder, gone.contains branch.id = other.contains branch.id) :
    tree.pruned gone = tree.pruned other := by
  induction tree with
  | node segment children ih =>
      have below : ∀ child ∈ children, ∀ branch ∈ child.preorder,
          gone.contains branch.id = other.contains branch.id :=
        fun child member branch branchMember =>
          same branch (mem_preorder_of_child member branchMember)
      have kept : unhidden gone children = unhidden other children := by
        apply List.filter_congr
        intro child member
        rw [below child member child (self_mem_preorder child)]
      rw [pruned_node, pruned_node, kept]
      congr 1
      apply List.map_congr_left
      intro child member
      have childMember := List.mem_of_mem_filter member
      exact ih child childMember (below child childMember)

@[simp] theorem pruned_empty (tree : Branch α) : tree.pruned ∅ = tree := by
  induction tree with
  | node segment children ih =>
      have kept : unhidden ∅ children = children := by simp [unhidden]
      rw [pruned_node, kept, List.map_congr_left ih, List.map_id']

theorem without_eq {tree : Branch α} (distinct : tree.DistinctIds) (gone : IdSet) :
    tree.without gone = tree.pruned gone := by
  by_cases none : gone.isEmpty = true
  · have empty : gone = ∅ := Std.ExtTreeSet.isEmpty_iff.mp none
    rw [without, if_pos none, carrying_children, empty, pruned_empty]
  · rw [without, if_neg none, rebuilt_eq_pruned distinct]

/-- In a tree without repeated ids, pruning follows the recursive rule for every set of ids. The
top stays as it is, an empty set needs no treatment of its own, and ids that name no segment have
no effect. -/
theorem without_eq_pruned {tree : Branch α} (distinct : tree.DistinctIds) (gone : IdSet) :
    tree.without gone = tree.pruned gone ∧
      (tree.without gone).segment = tree.segment ∧
      tree.rebuilt gone = tree.without gone ∧
      tree.without (gone ∩ tree.idSet) = tree.without gone ∧
      (gone ∩ tree.idSet = ∅ → tree.without gone = tree) := by
  have restricted : tree.pruned (gone ∩ tree.idSet) = tree.pruned gone := by
    apply pruned_congr
    intro branch member
    have known : branch.id ∈ tree.idSet := mem_idSet_iff.mpr ⟨branch, member, rfl⟩
    simp [Std.ExtTreeSet.contains_inter, known]
  refine ⟨without_eq distinct gone, ?_, ?_, ?_, ?_⟩
  · rw [without_eq distinct, segment_pruned]
  · rw [rebuilt_eq_pruned distinct, without_eq distinct]
  · rw [without_eq distinct, without_eq distinct, restricted]
  · intro none
    rw [without_eq distinct, ← restricted, none, pruned_empty]

/-- The id of the top and an unknown id take nothing away, and a pruned segment takes what grows
from it along. -/
theorem fork_without :
    fork.DistinctIds ∧
      fork.without (IdSet.ofIds ["root", "root-0-0", "root-2"]) =
        unextended "root" .null [
          unextended "root-0" (.text "root") [unextended "root-0-1" (.text "root-0") []],
          unextended "root-1" (.text "root") []] := by
  have distinct : fork.DistinctIds := by decide
  exact ⟨distinct, (without_eq_pruned distinct _).1.trans rfl⟩

end Topiary.Branch
