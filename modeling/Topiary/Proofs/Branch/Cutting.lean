import Mathlib.Data.List.Pairwise
import Topiary.Proofs.Branch.Visible

set_option autoImplicit false

/-!
# What a set of ids cuts off

A named segment falls with all that grows from it, and the top never falls. In a tree
without repeated ids this says which segments stay after pruning, whatever else the set
names; it makes two prunings one, and lets a segment stand for all that grows from it.
-/

namespace Topiary

def IdSet.unionAll (sets : List IdSet) : IdSet :=
  sets.foldr (fun ids others => ids ∪ others) ∅

theorem IdSet.mem_unionAll_iff {sets : List IdSet} {id : String} :
    id ∈ unionAll sets ↔ ∃ ids ∈ sets, id ∈ ids := by
  induction sets with
  | nil => simp [unionAll]
  | cons ids others ih =>
      rw [unionAll, List.foldr_cons, Std.ExtTreeSet.mem_union_iff, List.exists_mem_cons_iff]
      exact or_congr_right ih

namespace Branch

variable {α : Type}

/-- An id is cut off by a set that names a segment below the top at or under which it lies. -/
def CutOff (tree : Branch α) (gone : IdSet) (id : String) : Prop :=
  ∃ ancestor ∈ tree.descendants, ancestor.id ∈ gone ∧ id ∈ ancestor.idSet

instance (tree : Branch α) (gone : IdSet) (id : String) : Decidable (tree.CutOff gone id) :=
  inferInstanceAs (Decidable (∃ ancestor ∈ tree.descendants, _))

variable {tree : Branch α} {gone other : IdSet} {id : String}

/-! ## Segments by their ids -/

theorem DistinctIds.eq_of_id {first second : Branch α} (distinct : tree.DistinctIds)
    (firstMember : first ∈ tree.preorder) (secondMember : second ∈ tree.preorder)
    (same : first.id = second.id) : first = second := by
  rw [DistinctIds, traverse_eq_preorder] at distinct
  exact List.inj_on_of_nodup_map distinct firstMember secondMember same

theorem mem_idSet_trans {middle : Branch α} (member : middle ∈ tree.preorder)
    (below : id ∈ middle.idSet) : id ∈ tree.idSet := by
  obtain ⟨branch, branchMember, sameId⟩ := mem_idSet_iff.mp below
  exact mem_idSet_iff.mpr ⟨branch, mem_preorder_trans member branchMember, sameId⟩

theorem DistinctIds.grows_of_id_mem {ancestor branch : Branch α} (distinct : tree.DistinctIds)
    (ancestorMember : ancestor ∈ tree.preorder) (member : branch ∈ tree.preorder)
    (below : branch.id ∈ ancestor.idSet) : branch ∈ ancestor.preorder := by
  obtain ⟨same, sameMember, sameId⟩ := mem_idSet_iff.mp below
  obtain rfl : same = branch :=
    distinct.eq_of_id (mem_preorder_trans ancestorMember sameMember) member sameId
  exact sameMember

theorem DistinctIds.child {child : Branch α} (distinct : tree.DistinctIds)
    (member : child ∈ tree.children) : child.DistinctIds := by
  rw [distinctIds_iff, idsOfAll_cons, List.nodup_cons] at distinct
  rw [distinctIds_iff]
  have single : [child].Sublist tree.children := List.singleton_sublist.mpr member
  exact distinct.2.sublist ((idsOfAll_sublist single).trans (List.sublist_append_left _ _))

theorem DistinctIds.id_not_below (distinct : tree.DistinctIds) {branch : Branch α}
    (member : branch ∈ tree.descendants) : branch.id ≠ tree.id := by
  rw [DistinctIds, traverse_eq_descendants, List.map_cons, List.nodup_cons] at distinct
  exact fun same => distinct.1 (same ▸ List.mem_map_of_mem member)

theorem DistinctIds.same_child {first second branch otherBranch : Branch α}
    (distinct : tree.DistinctIds) (firstMember : first ∈ tree.children)
    (secondMember : second ∈ tree.children) (below : branch ∈ first.preorder)
    (otherBelow : otherBranch ∈ second.preorder) (same : branch.id = otherBranch.id) :
    first = second := by
  rw [DistinctIds, traverse_eq_descendants, descendants_eq_preorderAll, preorderAll_eq_flatMap,
    List.map_cons, List.nodup_cons, List.map_flatMap, List.nodup_flatMap] at distinct
  by_contra different
  have symmetric : Std.Symm (Function.onFun List.Disjoint fun child : Branch α =>
      child.preorder.map Branch.id) := ⟨fun _ _ apart _ first second => apart second first⟩
  have disjoint := distinct.2.2.forall firstMember secondMember different
  exact disjoint (List.mem_map_of_mem below) (same ▸ List.mem_map_of_mem otherBelow)

theorem find?_of_nodup {branches : List (Branch α)} {branch : Branch α}
    (unrepeated : (branches.map Branch.id).Nodup) (member : branch ∈ branches) :
    (branches.find? fun other => other.id == branch.id) = some branch := by
  cases found : branches.find? fun other => other.id == branch.id with
  | none =>
      have refused := List.find?_eq_none.mp found branch member
      exact absurd (beq_self_eq_true branch.id) refused
  | some first =>
      have same : first.id = branch.id := by simpa using List.find?_some found
      rw [List.inj_on_of_nodup_map unrepeated (List.mem_of_find?_eq_some found) member same]

theorem find?_eq_some_iff {branch : Branch α} (distinct : tree.DistinctIds) :
    tree.find? id = some branch ↔ branch ∈ tree.preorder ∧ branch.id = id := by
  rw [DistinctIds, traverse_eq_preorder] at distinct
  rw [find?, traverse_eq_preorder]
  constructor
  · intro found
    exact ⟨List.mem_of_find?_eq_some found, by simpa using List.find?_some found⟩
  · rintro ⟨member, rfl⟩
    exact find?_of_nodup distinct member

theorem mem_idsFrom_iff {below : String} (distinct : tree.DistinctIds) :
    below ∈ tree.idsFrom id ↔ ∃ branch ∈ tree.preorder, branch.id = id ∧ below ∈ branch.idSet := by
  rw [idsFrom]
  constructor
  · intro member
    cases found : tree.find? id with
    | none => simp [found] at member
    | some branch =>
        obtain ⟨branchMember, sameId⟩ := (find?_eq_some_iff distinct).mp found
        rw [found] at member
        exact ⟨branch, branchMember, sameId, member⟩
  · rintro ⟨branch, branchMember, sameId, member⟩
    rw [(find?_eq_some_iff distinct).mpr ⟨branchMember, sameId⟩]
    exact member

theorem find?_eq_none_iff : tree.find? id = none ↔ id ∉ tree.idSet := by
  rw [find?, traverse_eq_preorder, List.find?_eq_none, mem_idSet_iff]
  simp

theorem idsFrom_eq_empty_iff : tree.idsFrom id = ∅ ↔ id ∉ tree.idSet := by
  rw [← find?_eq_none_iff, idsFrom]
  cases tree.find? id with
  | none => simp
  | some branch =>
      have top : branch.id ∈ branch.idSet := id_mem_idSet (self_mem_preorder branch)
      simp only [reduceCtorEq, iff_false]
      intro empty
      rw [idSet, empty] at top
      exact Std.ExtTreeSet.not_mem_empty top

def idsFromAll (tree : Branch α) (named : IdSet) : IdSet :=
  IdSet.unionAll (named.toList.map tree.idsFrom)

theorem mem_idsFromAll_iff {named : IdSet} {below : String} :
    below ∈ tree.idsFromAll named ↔ ∃ id ∈ named, below ∈ tree.idsFrom id := by
  simp only [idsFromAll, IdSet.mem_unionAll_iff, List.mem_map, Std.ExtTreeSet.mem_toList,
    exists_exists_and_eq_and]

theorem idsFromAll_single (id : String) : tree.idsFromAll (IdSet.ofIds [id]) = tree.idsFrom id := by
  apply Std.ExtTreeSet.ext_mem
  intro below
  simp [mem_idsFromAll_iff, IdSet.mem_ofIds]

/-! ## Cutting off -/

theorem not_cutOff_id (distinct : tree.DistinctIds) (gone : IdSet) :
    ¬ tree.CutOff gone tree.id := by
  rintro ⟨ancestor, member, -, below⟩
  obtain ⟨branch, branchMember, same⟩ := mem_idSet_iff.mp below
  exact distinct.id_not_below (mem_descendants_trans member branchMember) same

/-- What grows from a child is cut off in the whole tree with the child, or within it. -/
theorem cutOff_iff_of_child {child branch : Branch α} (distinct : tree.DistinctIds)
    (childMember : child ∈ tree.children) (below : branch ∈ child.preorder) :
    tree.CutOff gone branch.id ↔ child.id ∈ gone ∨ child.CutOff gone branch.id := by
  constructor
  · rintro ⟨ancestor, member, named, ancestorAbove⟩
    obtain ⟨same, sameMember, sameId⟩ := mem_idSet_iff.mp ancestorAbove
    obtain ⟨sibling, siblingMember, ancestorBelow⟩ := mem_descendants_iff.mp member
    obtain rfl : sibling = child := distinct.same_child siblingMember childMember
      (mem_preorder_trans ancestorBelow sameMember) below sameId
    rcases mem_preorder_iff.mp ancestorBelow with rfl | ancestorBelow
    · exact .inl named
    · exact .inr ⟨ancestor, ancestorBelow, named, ancestorAbove⟩
  · rintro (named | ⟨ancestor, member, named, ancestorAbove⟩)
    · exact ⟨child, mem_descendants_iff.mpr ⟨child, childMember, self_mem_preorder child⟩, named,
        id_mem_idSet below⟩
    · exact ⟨ancestor, mem_descendants_iff.mpr
        ⟨child, childMember, mem_preorder_of_mem_descendants member⟩, named, ancestorAbove⟩

theorem cutOff_child_iff {child : Branch α} (distinct : tree.DistinctIds)
    (childMember : child ∈ tree.children) : tree.CutOff gone child.id ↔ child.id ∈ gone := by
  rw [cutOff_iff_of_child distinct childMember (self_mem_preorder child)]
  exact or_iff_left (not_cutOff_id (distinct.child childMember) gone)

theorem cutOff_union_iff :
    tree.CutOff (gone ∪ other) id ↔ tree.CutOff gone id ∨ tree.CutOff other id := by
  simp only [CutOff, Std.ExtTreeSet.mem_union_iff, or_and_right, and_or_left, exists_or]

/-- Segments below the top cut off what they cut off together with all that grows from them. -/
theorem cutOff_idsFromAll_iff (distinct : tree.DistinctIds) {named : IdSet}
    (topStays : tree.id ∉ named) :
    tree.CutOff (tree.idsFromAll named) id ↔ tree.CutOff named id := by
  constructor
  · rintro ⟨ancestor, member, recorded, ancestorAbove⟩
    obtain ⟨first, firstNamed, below⟩ := mem_idsFromAll_iff.mp recorded
    obtain ⟨branch, branchMember, rfl, ancestorBelow⟩ := (mem_idsFrom_iff distinct).mp below
    have grows : ancestor ∈ branch.preorder := distinct.grows_of_id_mem branchMember
      (mem_preorder_of_mem_descendants member) ancestorBelow
    have branchBelow := mem_descendants_of_ne branchMember fun top => topStays (top ▸ firstNamed)
    exact ⟨branch, branchBelow, firstNamed, mem_idSet_trans grows ancestorAbove⟩
  · rintro ⟨ancestor, member, named, ancestorAbove⟩
    have known := mem_preorder_of_mem_descendants member
    refine ⟨ancestor, member, mem_idsFromAll_iff.mpr ⟨ancestor.id, named, ?_⟩, ancestorAbove⟩
    exact (mem_idsFrom_iff distinct).mpr
      ⟨ancestor, known, rfl, id_mem_idSet (self_mem_preorder ancestor)⟩

/-! ## What stays -/

private theorem shownAll_eq_filter {keep : Branch α → Bool} {branches : List (Branch α)}
    (each : ∀ branch ∈ branches, branch.preorder.filter keep =
      if gone.contains branch.id then [] else branch.shown gone) :
    shownAll gone branches = (preorderAll branches).filter keep := by
  induction branches with
  | nil => simp [shownAll, preorderAll]
  | cons branch rest ih =>
      rw [shownAll, preorderAll, List.filter_append, each branch List.mem_cons_self,
        ih fun child member => each child (List.mem_cons_of_mem _ member)]

/-- A tree shows the segments that are not cut off, in the order of the walk. -/
theorem shown_eq_filter (distinct : tree.DistinctIds) (gone : IdSet) :
    tree.shown gone = tree.preorder.filter fun branch => ¬ tree.CutOff gone branch.id := by
  induction tree with
  | node segment children ih =>
      have topStays : ¬ (node segment children).CutOff gone (node segment children).id :=
        not_cutOff_id distinct gone
      rw [shown, preorder, List.filter_cons, if_pos (decide_eq_true topStays)]
      congr 1
      apply shownAll_eq_filter
      intro child member
      by_cases named : child.id ∈ gone
      -- All that grows from a named child falls with it.
      · rw [if_pos (Std.ExtTreeSet.mem_iff_contains.mp named), List.filter_eq_nil_iff]
        intro branch below
        have falls := (cutOff_iff_of_child distinct member below).mpr (.inl named)
        simpa using falls
      · rw [if_neg (mt Std.ExtTreeSet.mem_iff_contains.mpr named),
          ih child member (distinct.child member)]
        apply List.filter_congr
        intro branch below
        have within : (node segment children).CutOff gone branch.id ↔
            child.id ∈ gone ∨ child.CutOff gone branch.id :=
          cutOff_iff_of_child distinct member below
        simp only [within, named, false_or]

theorem length_pruned_add_countP (distinct : tree.DistinctIds) (gone : IdSet) :
    (tree.pruned gone).preorder.length +
        tree.preorder.countP (fun branch => tree.CutOff gone branch.id) =
      tree.preorder.length := by
  have lengths := congrArg List.length (ids_pruned tree gone)
  rw [List.length_map, List.length_map, shown_eq_filter distinct, ← List.countP_eq_length_filter]
    at lengths
  rw [lengths, Nat.add_comm]
  simpa using (List.length_eq_countP_add_countP
    (fun branch : Branch α => decide (tree.CutOff gone branch.id))).symm

/-- Below the top, a pruned tree has no id that was to be taken away. -/
theorem not_mem_of_mem_descendants_pruned (distinct : tree.DistinctIds) {branch : Branch α}
    (member : branch ∈ (tree.pruned gone).descendants) : branch.id ∉ gone := by
  intro named
  have notTop := (distinct.pruned gone).id_not_below member
  have shown : branch.id ∈ (tree.pruned gone).preorder.map Branch.id :=
    List.mem_map_of_mem (mem_preorder_of_mem_descendants member)
  rw [ids_pruned, shown_eq_filter distinct, List.mem_map] at shown
  obtain ⟨same, sameMember, sameId⟩ := shown
  obtain ⟨sameMember, stays⟩ := List.mem_filter.mp sameMember
  rcases mem_preorder_iff.mp sameMember with rfl | below
  · rw [id_pruned] at notTop
    exact notTop sameId.symm
  · have falls : tree.CutOff gone same.id :=
      ⟨same, below, sameId ▸ named, id_mem_idSet (self_mem_preorder same)⟩
    exact of_decide_eq_true stays falls

theorem pruned_congr_of_cutOff (distinct : tree.DistinctIds)
    (same : ∀ branch ∈ tree.preorder, tree.CutOff gone branch.id ↔ tree.CutOff other branch.id) :
    tree.pruned gone = tree.pruned other := by
  induction tree with
  | node segment children ih =>
      have named : ∀ child ∈ children, child.id ∈ gone ↔ child.id ∈ other := by
        intro child member
        rw [← cutOff_child_iff distinct member, ← cutOff_child_iff distinct member]
        exact same child (mem_preorder_of_child member (self_mem_preorder child))
      have kept : unhidden gone children = unhidden other children := by
        apply List.filter_congr
        intro child member
        have sameTest := named child member
        rw [Std.ExtTreeSet.mem_iff_contains, Std.ExtTreeSet.mem_iff_contains] at sameTest
        rw [Bool.eq_iff_iff.mpr sameTest]
      rw [pruned_node, pruned_node, kept]
      congr 1
      apply List.map_congr_left
      intro child keptMember
      have member : child ∈ children := List.mem_of_mem_filter keptMember
      have stays : child.id ∉ other := by
        have test := (List.mem_filter.mp keptMember).2
        rwa [Bool.not_eq_true', ← Bool.not_eq_true, ← Std.ExtTreeSet.mem_iff_contains] at test
      apply ih child member (distinct.child member)
      intro branch below
      have whole := same branch (mem_preorder_of_child member below)
      rw [cutOff_iff_of_child distinct member below, cutOff_iff_of_child distinct member below,
        named child member] at whole
      simpa [stays] using whole

/-! ## Pruning twice -/

theorem pruned_pruned (tree : Branch α) (gone other : IdSet) :
    (tree.pruned gone).pruned other = tree.pruned (gone ∪ other) := by
  induction tree with
  | node segment children ih =>
      have kept : unhidden other ((unhidden gone children).map (pruned gone)) =
          (unhidden (gone ∪ other) children).map (pruned gone) := by
        rw [unhidden, unhidden, unhidden, List.filter_map, List.filter_filter]
        congr 2
        funext child
        simp [Std.ExtTreeSet.contains_union, Bool.and_comm]
      rw [pruned_node, pruned_node, pruned_node, kept, List.map_map]
      congr 1
      apply List.map_congr_left
      intro child member
      exact ih child (List.mem_of_mem_filter member)

/-- Pruning a pruned tree once more in some places amounts to taking away all that grows there from
the whole tree. -/
theorem pruned_union_idsFromAll (distinct : tree.DistinctIds) {named : IdSet}
    (topStays : tree.id ∉ named) (gone : IdSet) :
    tree.pruned (gone ∪ tree.idsFromAll named) = (tree.pruned gone).pruned named := by
  rw [pruned_pruned]
  apply pruned_congr_of_cutOff distinct
  intro branch _
  rw [cutOff_union_iff, cutOff_union_iff, cutOff_idsFromAll_iff distinct topStays]

theorem pruned_union_idsFrom (distinct : tree.DistinctIds) {named : String}
    (notTop : named ≠ tree.id) (gone : IdSet) :
    tree.pruned (gone ∪ tree.idsFrom named) = (tree.pruned gone).pruned (IdSet.ofIds [named]) := by
  have topStays : tree.id ∉ IdSet.ofIds [named] := by
    simpa [IdSet.mem_ofIds] using notTop.symm
  rw [← idsFromAll_single, pruned_union_idsFromAll distinct topStays]

/-! ## Pruning again and again -/

theorem DistinctIds.without (distinct : tree.DistinctIds) (gone : IdSet) :
    (tree.without gone).DistinctIds := by
  rw [without_eq distinct]
  exact distinct.pruned gone

theorem without_union (distinct : tree.DistinctIds) (gone other : IdSet) :
    tree.without (gone ∪ other) = (tree.without gone).without other := by
  rw [without_eq distinct, without_eq (distinct.without gone), without_eq distinct, pruned_pruned]

theorem foldl_without (distinct : tree.DistinctIds) (sets : List IdSet) :
    sets.foldl without tree = tree.without (IdSet.unionAll sets) := by
  induction sets generalizing tree with
  | nil => exact ((without_eq distinct ∅).trans (pruned_empty tree)).symm
  | cons gone later ih =>
      calc
        (gone :: later).foldl without tree = (tree.without gone).without (IdSet.unionAll later) :=
          ih (distinct.without gone)
        _ = tree.without (IdSet.unionAll (gone :: later)) := (without_union distinct gone _).symm

/-- In a tree without repeated ids, taking away two sets of ids one after the other is taking them
away together. It therefore changes nothing to take a set away again, nor does the order matter,
and so it is for any number of sets. -/
theorem without_without (distinct : tree.DistinctIds) (gone other : IdSet) :
    (tree.without gone).without other = tree.without (gone ∪ other) ∧
      (tree.without gone).without gone = tree.without gone ∧
      (tree.without gone).without other = (tree.without other).without gone ∧
      ∀ sets, sets.foldl without tree = tree.without (IdSet.unionAll sets) := by
  have twice : gone ∪ gone = gone := by
    apply Std.ExtTreeSet.ext_mem
    simp [Std.ExtTreeSet.mem_union_iff]
  have swapped : gone ∪ other = other ∪ gone := by
    apply Std.ExtTreeSet.ext_mem
    simp [Std.ExtTreeSet.mem_union_iff, or_comm]
  refine ⟨(without_union distinct gone other).symm, ?_, ?_, foldl_without distinct⟩
  · rw [← without_union distinct, twice]
  · rw [← without_union distinct, ← without_union distinct, swapped]

/-- The second set names the top, a segment that has fallen with the first, and one that has not. -/
theorem fork_without_without :
    fork.DistinctIds ∧
      (fork.without (IdSet.ofIds ["root-0-0"])).without
          (IdSet.ofIds ["root", "root-0-0-0", "root-1"]) =
        unextended "root" .null [
          unextended "root-0" (.text "root") [unextended "root-0-1" (.text "root-0") []]] := by
  have distinct : fork.DistinctIds := by decide
  obtain ⟨together, -⟩ := without_without distinct (IdSet.ofIds ["root-0-0"])
    (IdSet.ofIds ["root", "root-0-0-0", "root-1"])
  exact ⟨distinct, together.trans ((without_eq distinct _).trans rfl)⟩

end Branch

end Topiary
