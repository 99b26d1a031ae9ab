import Topiary.Proofs.Branch.Cutting
import Topiary.Proofs.Branch.Links

set_option autoImplicit false

/-!
# Ancestry in the ids

In a tree with named children the id of a segment goes on from the ids of all segments from
which it grows, and from no others. What grows from a segment can therefore be read off the
ids, also where some positions are empty because their branches have been pruned.
-/

namespace Topiary.Branch

variable {α : Type} {tree branch : Branch α} {id below : String}

/-- An id at or above a segment of a named tree lies at or above its top, or is the id of a
segment from which it grows. -/
theorem Linked.exists_ancestor (named : Linked NamedFrom tree) (member : branch ∈ tree.preorder)
    (atOrBelow : AtOrBelow id branch.id) :
    AtOrBelow id tree.id ∨
      ∃ ancestor ∈ tree.preorder, ancestor.id = id ∧ branch ∈ ancestor.preorder := by
  induction named with
  | @node segment children links _ ih =>
      rw [preorder_node, List.mem_cons, List.mem_flatMap] at member
      rcases member with rfl | ⟨child, childMember, branchMember⟩
      · exact .inl atOrBelow
      · rcases ih child childMember branchMember with aboveChild | ⟨ancestor, found, sameId, grows⟩
        · obtain ⟨position, listed⟩ := List.mem_iff_getElem?.mp childMember
          obtain ⟨formerPosition, childId, -⟩ := links position child listed
          rw [Branch.id, childId] at aboveChild
          rcases aboveChild.parent with rfl | aboveTop
          · exact .inr ⟨child, mem_preorder_of_child childMember (self_mem_preorder child), childId,
              branchMember⟩
          · exact .inl aboveTop
        · exact .inr ⟨ancestor, mem_preorder_of_child childMember found, sameId, grows⟩

/-- In a named tree with an undivided id at its top, what grows from the segment with some id are
the segments with ids that go on from it. -/
theorem Linked.mem_idsFrom_iff (named : Linked NamedFrom tree) (distinct : tree.DistinctIds)
    (undivided : '-' ∉ tree.id.toList) :
    below ∈ tree.idsFrom id ↔ below ∈ tree.idSet ∧ AtOrBelow id below := by
  rw [Branch.mem_idsFrom_iff distinct]
  constructor
  · rintro ⟨ancestor, member, rfl, grows⟩
    obtain ⟨branch, branchMember, rfl⟩ := mem_idSet_iff.mp grows
    exact ⟨mem_idSet_trans member grows, (named.of_mem_preorder member).atOrBelow branchMember⟩
  · rintro ⟨known, atOrBelow⟩
    obtain ⟨branch, member, rfl⟩ := mem_idSet_iff.mp known
    rcases named.exists_ancestor member atOrBelow with aboveTop | ⟨ancestor, found, sameId, grows⟩
    · exact ⟨tree, self_mem_preorder tree, ((atOrBelow_iff_eq undivided).mp aboveTop).symm, known⟩
    · exact ⟨ancestor, found, sameId, id_mem_idSet grows⟩

end Topiary.Branch
