import Topiary.Proofs.Branch.Cutting
import Topiary.Proofs.Branch.Outline

set_option autoImplicit false

/-!
# Sets that name whole branches

A set of ids is closed in a tree if it names all that grows from every segment that it
names. Such a set cuts off what it names and nothing else, so the ids that stay and their
number can be told from the set alone. Any set that spares the top can be made closed without
taking away more.
-/

namespace Topiary

theorem IdSet.nodup_toList (ids : IdSet) : ids.toList.Nodup := by
  refine Std.ExtTreeSet.distinct_toList.imp ?_
  rintro first second different rfl
  exact different Std.ReflCmp.compare_self

namespace Branch

variable {α : Type} {tree : Branch α} {gone other : IdSet} {id : String}

/-- A set that names, with every segment of a tree, all that grows from it. -/
def Closed (tree : Branch α) (gone : IdSet) : Prop :=
  ∀ id ∈ gone, ∀ below ∈ tree.idsFrom id, below ∈ gone

theorem Closed.empty (tree : Branch α) : tree.Closed ∅ :=
  fun _ member => absurd member Std.ExtTreeSet.not_mem_empty

theorem Closed.union (closed : tree.Closed gone) (otherClosed : tree.Closed other) :
    tree.Closed (gone ∪ other) := by
  intro id member below fromId
  rw [Std.ExtTreeSet.mem_union_iff] at member ⊢
  rcases member with member | member
  · exact .inl (closed id member below fromId)
  · exact .inr (otherClosed id member below fromId)

theorem closed_idsFrom (distinct : tree.DistinctIds) (id : String) :
    tree.Closed (tree.idsFrom id) := by
  intro middle member below fromMiddle
  rw [mem_idsFrom_iff distinct] at member fromMiddle ⊢
  obtain ⟨branch, branchMember, sameId, middleBelow⟩ := member
  obtain ⟨inner, innerMember, rfl, belowInner⟩ := fromMiddle
  have grows := distinct.grows_of_id_mem branchMember innerMember middleBelow
  exact ⟨branch, branchMember, sameId, mem_idSet_trans grows belowInner⟩

theorem closed_idsFromAll (distinct : tree.DistinctIds) (named : IdSet) :
    tree.Closed (tree.idsFromAll named) := by
  intro middle member below fromMiddle
  obtain ⟨id, idNamed, fromId⟩ := mem_idsFromAll_iff.mp member
  exact mem_idsFromAll_iff.mpr
    ⟨id, idNamed, closed_idsFrom distinct id middle fromId below fromMiddle⟩

theorem idsFrom_eq (tree : Branch α) (id : String) :
    tree.idsFrom id =
      match tree.preorder.find? fun branch => branch.id == id with
      | some branch => IdSet.ofIds (branch.preorder.map Branch.id)
      | none => ∅ := by
  rw [idsFrom, find?, traverse_eq_preorder]
  cases (tree.preorder.find? fun branch => branch.id == id) with
  | none => rfl
  | some branch => simp only [traverse_eq_preorder]

theorem closed_outline : tree.outline.Closed gone ↔ tree.Closed gone := by
  simp only [Closed, outline, idsFrom_map]

/-- Under a segment other than the top there is no segment with the id of the top. -/
theorem top_not_mem_idsFrom (distinct : tree.DistinctIds) (notTop : id ≠ tree.id) :
    tree.id ∉ tree.idsFrom id := by
  rw [mem_idsFrom_iff distinct]
  rintro ⟨branch, member, rfl, above⟩
  obtain ⟨last, lastMember, lastId⟩ := mem_idSet_iff.mp above
  have below := mem_descendants_of_ne member notTop
  exact distinct.id_not_below (mem_descendants_trans below lastMember) lastId

theorem top_not_mem_idsFromAll (distinct : tree.DistinctIds) {named : IdSet}
    (topStays : tree.id ∉ named) : tree.id ∉ tree.idsFromAll named := by
  intro member
  obtain ⟨id, idNamed, fromId⟩ := mem_idsFromAll_iff.mp member
  exact top_not_mem_idsFrom distinct (fun top => topStays (top ▸ idNamed)) fromId

/-! ## What a closed set cuts off -/

section Pruning

variable (distinct : tree.DistinctIds) (closed : tree.Closed gone) (topStays : tree.id ∉ gone)

include distinct closed

theorem Closed.mem_of_mem_preorder {branch below : Branch α} (member : branch ∈ tree.preorder)
    (named : branch.id ∈ gone) (belowMember : below ∈ branch.preorder) : below.id ∈ gone := by
  apply closed branch.id named
  rw [mem_idsFrom_iff distinct]
  exact ⟨branch, member, rfl, id_mem_idSet belowMember⟩

include topStays

theorem Closed.cutOff_iff {branch : Branch α} (member : branch ∈ tree.preorder) :
    tree.CutOff gone branch.id ↔ branch.id ∈ gone := by
  constructor
  · rintro ⟨ancestor, ancestorMember, named, above⟩
    obtain ⟨same, sameMember, sameId⟩ := mem_idSet_iff.mp above
    rw [← sameId]
    exact closed.mem_of_mem_preorder distinct (mem_preorder_of_mem_descendants ancestorMember)
      named sameMember
  · intro named
    have below := mem_descendants_of_ne member fun top => topStays (top ▸ named)
    exact ⟨branch, below, named, id_mem_idSet (self_mem_preorder branch)⟩

theorem Closed.ids_pruned : (tree.pruned gone).preorder.map Branch.id =
    (tree.preorder.map Branch.id).filter fun id => id ∉ gone := by
  rw [Branch.ids_pruned, shown_eq_filter distinct, List.filter_map]
  congr 1
  apply List.filter_congr
  intro branch member
  rw [Function.comp_apply, decide_eq_decide, closed.cutOff_iff distinct topStays member]

omit closed topStays in
private theorem length_filter_mem (gone : IdSet) :
    ((tree.preorder.map Branch.id).filter fun id => id ∈ gone).length =
      (gone ∩ tree.idSet).size := by
  rw [DistinctIds, traverse_eq_preorder] at distinct
  rw [← Std.ExtTreeSet.length_toList]
  apply List.Perm.length_eq
  rw [List.perm_ext_iff_of_nodup (distinct.filter _) (IdSet.nodup_toList _)]
  intro id
  rw [List.mem_filter, Std.ExtTreeSet.mem_toList, Std.ExtTreeSet.mem_inter_iff, idSet,
    IdSet.mem_ofIds, traverse_eq_preorder, decide_eq_true_eq, and_comm]

theorem Closed.length_pruned :
    (tree.pruned gone).preorder.length + (gone ∩ tree.idSet).size = tree.preorder.length := by
  have stays := congrArg List.length (closed.ids_pruned distinct topStays)
  have falls := length_filter_mem distinct gone
  have all := List.length_eq_length_filter_add (l := tree.preorder.map Branch.id)
    fun id => decide (id ∈ gone)
  simp only [List.length_map, decide_not] at stays all
  omega

end Pruning

/-! ## Recording what grows from the named segments -/

/-- A set that does not name the top takes away the same as the set of all that grows from the
segments that it names. Of this set the ids that stay can be told without looking at ancestors: they
are those that it does not name. -/
theorem without_idsFromAll (distinct : tree.DistinctIds) {named : IdSet}
    (topStays : tree.id ∉ named) :
    let recorded := tree.idsFromAll named
    tree.without named = tree.without recorded ∧
      (tree.without recorded).traverse.map Branch.id =
        (tree.traverse.map Branch.id).filter fun id => id ∉ recorded := by
  intro recorded
  have closed : tree.Closed recorded := closed_idsFromAll distinct named
  refine ⟨?_, ?_⟩
  · rw [without_eq distinct, without_eq distinct]
    apply pruned_congr_of_cutOff distinct
    intro branch _
    exact (cutOff_idsFromAll_iff distinct topStays).symm
  · rw [without_eq distinct, traverse_eq_preorder, traverse_eq_preorder]
    exact closed.ids_pruned distinct (top_not_mem_idsFromAll distinct topStays)

/-- Two named segments of which one grows from the other, and an id that names none. -/
theorem fork_without_idsFromAll :
    let named := IdSet.ofIds ["root-0", "root-0-0", "root-7"]
    let recorded := fork.idsFromAll named
    fork.DistinctIds ∧ fork.id ∉ named ∧ fork.without named = fork.without recorded ∧
      ((fork.traverse.map Branch.id).filter fun id => id ∉ recorded) = ["root", "root-1"] := by
  intro named recorded
  have distinct : fork.DistinctIds := by decide
  have topStays : fork.id ∉ named := by decide
  obtain ⟨same, stays⟩ := without_idsFromAll distinct topStays
  refine ⟨distinct, topStays, same, ?_⟩
  rw [← stays, ← same, without_eq distinct, traverse_eq_preorder]
  rfl

end Branch

end Topiary
