import Topiary.Proofs.Branch.Pruning
import Topiary.Survey.Statistics

set_option autoImplicit false

/-!
# What a tree shows

The walk that passes hidden branches by yields the recursive order without them. With
nothing hidden it shows every branch below the top, and what it shows of a tree are the
segments that stay when the hidden branches are pruned.
-/

namespace Topiary.Branch

variable {α : Type} {hidden : IdSet}

theorem shownAll_eq_flatMap (branches : List (Branch α)) :
    shownAll hidden branches = (unhidden hidden branches).flatMap (shown hidden) := by
  induction branches with
  | nil => simp [shownAll, unhidden]
  | cons branch rest ih =>
      by_cases isHidden : hidden.contains branch.id = true
      · simp [shownAll, unhidden, isHidden, ih]
      · simp [shownAll, unhidden, isHidden, ih]

@[simp] theorem shown_node (segment : Segment α) (children : List (Branch α)) :
    (node segment children).shown hidden =
      node segment children :: (unhidden hidden children).flatMap (shown hidden) := by
  rw [shown, shownAll_eq_flatMap]

theorem visibleFrom_eq (pending : List (Branch α)) (visited : Array (Branch α)) :
    (visibleFrom hidden pending visited).toList =
      visited.toList ++ pending.flatMap (shown hidden) := by
  fun_induction visibleFrom hidden pending visited with
  | case1 visited => simp
  | case2 visited branch rest ih =>
      rw [ih]
      cases branch
      simp

theorem visible_eq_shownAll (tree : Branch α) (hidden : IdSet) :
    tree.visible hidden = shownAll hidden tree.children := by
  rw [visible, visibleFrom_eq, shownAll_eq_flatMap]
  rfl

theorem shown_eq_visible (tree : Branch α) (hidden : IdSet) :
    tree.shown hidden = tree :: tree.visible hidden := by
  rw [visible_eq_shownAll]
  cases tree with
  | node segment children => rw [shown, children_node]

/-! ## Nothing hidden -/

@[simp] theorem unhidden_empty (branches : List (Branch α)) : unhidden ∅ branches = branches := by
  simp [unhidden]

@[simp] theorem shown_empty (tree : Branch α) : tree.shown ∅ = tree.preorder := by
  induction tree with
  | node segment children ih =>
      rw [shown_node, preorder_node, unhidden_empty, List.flatMap_congr ih]

theorem descendants_eq_preorderAll (tree : Branch α) :
    tree.descendants = preorderAll tree.children := by
  rw [descendants, visible_eq_shownAll, shownAll_eq_flatMap, unhidden_empty,
    preorderAll_eq_flatMap]
  exact List.flatMap_congr fun child _ => shown_empty child

/-- A walk begins with the top and goes on with what grows from it. -/
theorem traverse_eq_descendants (tree : Branch α) : tree.traverse = tree :: tree.descendants := by
  rw [traverse_eq_preorder, preorder_eq, descendants_eq_preorderAll]

theorem descendants_map {β : Type} (f : α → β) (tree : Branch α) :
    (tree.map f).descendants = tree.descendants.map (map f) := by
  have walks := preorder_map f tree
  rw [← traverse_eq_preorder, ← traverse_eq_preorder, traverse_eq_descendants,
    traverse_eq_descendants] at walks
  exact (List.cons.inj walks).2

theorem mem_descendants_iff {tree branch : Branch α} :
    branch ∈ tree.descendants ↔ ∃ child ∈ tree.children, branch ∈ child.preorder := by
  rw [descendants_eq_preorderAll, preorderAll_eq_flatMap, List.mem_flatMap]

theorem mem_preorder_iff {tree branch : Branch α} :
    branch ∈ tree.preorder ↔ branch = tree ∨ branch ∈ tree.descendants := by
  rw [← traverse_eq_preorder, traverse_eq_descendants, List.mem_cons]

theorem mem_preorder_of_mem_descendants {tree branch : Branch α}
    (member : branch ∈ tree.descendants) : branch ∈ tree.preorder :=
  mem_preorder_iff.mpr (.inr member)

theorem mem_descendants_of_ne {tree branch : Branch α} (member : branch ∈ tree.preorder)
    (notTop : branch.id ≠ tree.id) : branch ∈ tree.descendants :=
  (mem_preorder_iff.mp member).resolve_left fun top => notTop (congrArg Branch.id top)

theorem mem_descendants_trans {tree middle descendant : Branch α}
    (member : middle ∈ tree.descendants) (below : descendant ∈ middle.preorder) :
    descendant ∈ tree.descendants := by
  obtain ⟨child, childMember, middleBelow⟩ := mem_descendants_iff.mp member
  exact mem_descendants_iff.mpr ⟨child, childMember, mem_preorder_trans middleBelow below⟩

/-! ## What stays after pruning -/

/-- A pruned tree has the segments that the tree shows with the pruned branches hidden. -/
theorem segments_pruned (tree : Branch α) (gone : IdSet) :
    (tree.pruned gone).preorder.map Branch.segment = (tree.shown gone).map Branch.segment := by
  induction tree with
  | node segment children ih =>
      rw [pruned_node, preorder_node, shown_node, List.map_cons, List.map_cons, List.flatMap_map,
        List.map_flatMap, List.map_flatMap, segment_node, segment_node]
      congr 1
      apply List.flatMap_congr
      intro child member
      exact ih child (List.mem_of_mem_filter member)

theorem shown_sublist (tree : Branch α) (hidden : IdSet) :
    (tree.shown hidden).Sublist tree.preorder := by
  induction tree with
  | node segment children ih =>
      rw [shown_node, preorder_node]
      have shorter : ((unhidden hidden children).flatMap (shown hidden)).Sublist
          ((unhidden hidden children).flatMap preorder) :=
        .flatMap_right _ fun child member => ih child (List.mem_of_mem_filter member)
      have fewer : (unhidden hidden children).Sublist children := List.filter_sublist
      exact (shorter.trans (fewer.flatMap preorder)).cons_cons _

theorem ids_pruned (tree : Branch α) (gone : IdSet) :
    (tree.pruned gone).preorder.map Branch.id = (tree.shown gone).map Branch.id := by
  have ids := congrArg (List.map Segment.id) (segments_pruned tree gone)
  rwa [List.map_map, List.map_map] at ids

theorem DistinctIds.pruned {tree : Branch α} (distinct : tree.DistinctIds) (gone : IdSet) :
    (tree.pruned gone).DistinctIds := by
  rw [DistinctIds, traverse_eq_preorder] at distinct ⊢
  rw [ids_pruned]
  exact distinct.sublist ((shown_sublist tree gone).map _)

/-! ## The visible branches and the pruned tree -/

theorem segments_visible (tree : Branch α) (hidden : IdSet) :
    (tree.visible hidden).map segment = (tree.pruned hidden).descendants.map segment := by
  have walks := segments_pruned tree hidden
  rw [← traverse_eq_preorder, traverse_eq_descendants, shown_eq_visible, List.map_cons,
    List.map_cons] at walks
  exact (List.cons.inj walks).2.symm

/-- What a tree without repeated ids shows with some branches hidden and what a walk over the pruned
tree visits after its top are the same segments in the same order, and the statistics of the pruned
tree count them. -/
theorem segments_visible_eq_walk [Scalar α] {tree : Branch α} (distinct : tree.DistinctIds)
    (hidden : IdSet) :
    (tree.visible hidden).map segment = (tree.without hidden).traverse.tail.map segment ∧
      (Statistics.ofTree (tree.without hidden)).segments = (tree.visible hidden).length := by
  rw [without_eq distinct]
  have walk : (tree.pruned hidden).traverse.tail = (tree.pruned hidden).descendants := by
    rw [traverse_eq_descendants, List.tail_cons]
  refine ⟨?_, ?_⟩
  · rw [walk]
    exact segments_visible tree hidden
  · have lengths := congrArg List.length (segments_visible tree hidden)
    rw [List.length_map, List.length_map] at lengths
    exact lengths.symm

/-- The id of the top hides nothing, and a hidden segment hides what grows from it. -/
theorem segments_visible_eq_walk_fork :
    let tree := fork.map Float.ofNat
    let hidden := IdSet.ofIds ["root", "root-0-0"]
    tree.DistinctIds ∧
      (tree.without hidden).traverse.tail.map (fun branch => branch.segment.id) =
        ["root-0", "root-0-1", "root-1"] ∧
      (Statistics.ofTree (tree.without hidden)).segments = 3 := by
  intro tree hidden
  have distinct : tree.DistinctIds := DistinctIds.map (by decide) Float.ofNat
  obtain ⟨sameSegments, counted⟩ := segments_visible_eq_walk distinct hidden
  refine ⟨distinct, ?_, ?_⟩
  · have sameIds := congrArg (List.map Segment.id) sameSegments
    rw [List.map_map, List.map_map, visible_eq_shownAll] at sameIds
    exact sameIds.symm
  · rw [counted, visible_eq_shownAll]
    rfl

end Topiary.Branch
