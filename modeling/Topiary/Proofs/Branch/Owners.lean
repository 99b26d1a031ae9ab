import Topiary.Proofs.Branch.Ancestry
import Topiary.Proofs.Branch.Paths

set_option autoImplicit false

/-!
# Owners

A parent is looked up by the id that its child names, in an index that keeps the last
branch with an id. Where no id repeats and each child names the segment that lists it,
this finds the owner of every branch. It does so in any part of a tree: the top of a part
names a segment that the part does not have.
-/

namespace Topiary.Branch

variable {α : Type} {tree branch : Branch α} {id : String}

/-! ## The index -/

theorem getElem?_foldl_insert (branches : List (Branch α)) (entries : Std.HashMap String (Branch α))
    (id : String) :
    (branches.foldl (fun entries branch => entries.insert branch.id branch) entries)[id]? =
      (branches.reverse.find? fun branch => branch.id == id).or entries[id]? := by
  induction branches generalizing entries with
  | nil => rfl
  | cons branch rest ih =>
      rw [List.foldl_cons, ih, Std.HashMap.getElem?_insert, List.reverse_cons, List.find?_append,
        Option.or_assoc]
      congr 1
      by_cases same : branch.id = id
      · simp [same]
      · simp [same]

/-- The index keeps the last branch with an id. -/
theorem getElem?_byId (tree : Branch α) (id : String) :
    tree.byId[id]? = tree.traverse.reverse.find? fun branch => branch.id == id := by
  rw [byId, getElem?_foldl_insert, Std.HashMap.getElem?_empty, Option.or_none]

theorem DistinctIds.getElem?_byId (distinct : tree.DistinctIds) (id : String) :
    tree.byId[id]? = tree.find? id := by
  rw [Branch.getElem?_byId]
  cases found : tree.find? id with
  | none =>
      rw [find?, List.find?_eq_none] at found
      rw [List.find?_eq_none]
      exact fun branch member => found branch (List.mem_reverse.mp member)
  | some branch =>
      obtain ⟨member, rfl⟩ := (find?_eq_some_iff distinct).mp found
      rw [← traverse_eq_preorder] at member
      refine find?_of_nodup ?_ (List.mem_reverse.mpr member)
      rw [List.map_reverse, List.nodup_reverse]
      exact distinct

/-! ## Parents -/

theorem DistinctIds.of_mem_preorder (distinct : tree.DistinctIds) (member : branch ∈ tree.preorder) :
    branch.DistinctIds := by
  induction tree with
  | node segment children ih =>
      rw [preorder_node, List.mem_cons, List.mem_flatMap] at member
      rcases member with rfl | ⟨child, childMember, below⟩
      · exact distinct
      · exact ih child childMember (distinct.child childMember) below

theorem DistinctIds.parentOf?_unknown (distinct : tree.DistinctIds) (unknown : id ∉ tree.idSet) :
    tree.parentOf? id = .ok none := by
  simp only [parentOf?, distinct.getElem?_byId, find?_eq_none_iff.mpr unknown]

theorem DistinctIds.parentOf?_of_text {parentId : String} (distinct : tree.DistinctIds)
    (member : branch ∈ tree.preorder) (names : branch.segment.parentId = .text parentId) :
    tree.parentOf? branch.id = .ok (tree.find? parentId) := by
  have found : tree.find? branch.id = some branch :=
    (find?_eq_some_iff distinct).mpr ⟨member, rfl⟩
  simp only [parentOf?, distinct.getElem?_byId, found, names]

namespace Linked

section Parents

variable (named : Linked NamedFrom tree) (distinct : tree.DistinctIds)

include named distinct

theorem parentOf?_child {parent child : Branch α} (member : parent ∈ tree.preorder)
    (listed : child ∈ parent.children) : tree.parentOf? child.id = .ok (some parent) := by
  obtain ⟨position, atPosition⟩ := List.mem_iff_getElem?.mp listed
  obtain ⟨_, -, names⟩ := named.link_of_mem member atPosition
  have childMember := mem_preorder_trans member
    (mem_preorder_of_child listed (self_mem_preorder child))
  have found : tree.find? parent.id = some parent :=
    (find?_eq_some_iff distinct).mpr ⟨member, rfl⟩
  exact (distinct.parentOf?_of_text childMember names).trans (congrArg Except.ok found)

/-- Every id of a tree but the one of the top has an owner: the only segment with a child of this
id. -/
theorem exists_owner (known : id ∈ tree.idSet) (notTop : id ≠ tree.id) :
    ∃ owner ∈ tree.traverse, tree.parentOf? id = .ok (some owner) ∧
      ∀ parent ∈ tree.traverse, (∃ child ∈ parent.children, child.id = id) ↔ parent = owner := by
  obtain ⟨branch, member, rfl⟩ := mem_idSet_iff.mp known
  rcases exists_parent member with rfl | ⟨owner, ownerMember, position, atPosition⟩
  · exact absurd rfl notTop
  · have listed := List.mem_of_getElem? atPosition
    have found := named.parentOf?_child distinct ownerMember listed
    rw [traverse_eq_preorder]
    refine ⟨owner, ownerMember, found, fun parent parentMember => ⟨?_, ?_⟩⟩
    · rintro ⟨child, childListed, sameId⟩
      have alsoFound := named.parentOf?_child distinct parentMember childListed
      rw [sameId, found] at alsoFound
      cases alsoFound
      rfl
    · rintro rfl
      exact ⟨branch, listed, rfl⟩

end Parents

/-- The top of a part names no parent, or one that the part does not have. -/
theorem parentOf?_top {part : Branch α} (named : Linked NamedFrom tree)
    (distinct : tree.DistinctIds) (topNamesNone : tree.segment.parentId = .null)
    (member : part ∈ tree.preorder) : part.parentOf? part.id = .ok none := by
  have distinctPart := distinct.of_mem_preorder member
  rcases exists_parent member with rfl | ⟨parent, parentMember, position, atPosition⟩
  · have found : part.find? part.id = some part :=
      (find?_eq_some_iff distinct).mpr ⟨member, rfl⟩
    simp only [parentOf?, distinct.getElem?_byId, found, topNamesNone]
  · obtain ⟨formerPosition, childId, names⟩ := named.link_of_mem parentMember atPosition
    have outside : parent.id ∉ part.idSet := by
      intro inside
      obtain ⟨branch, branchMember, sameId⟩ := mem_idSet_iff.mp inside
      have below := (named.of_mem_preorder member).atOrBelow branchMember
      rw [sameId, Branch.id, childId] at below
      exact AtOrBelow.not_child below
    exact (distinctPart.parentOf?_of_text (self_mem_preorder part) names).trans
      (congrArg Except.ok (find?_eq_none_iff.mpr outside))

end Linked

end Topiary.Branch
