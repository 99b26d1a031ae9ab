import Topiary.Proofs.Branch.Links

set_option autoImplicit false

/-!
# Ways through a tree

A way from the top is the list of the positions of the children that it goes through.
In a named tree the id of a segment spells out the way that leads to it.
-/

namespace Topiary

variable {α : Type}

/-- An id followed by the positions of a way, each after a dash. -/
def idAlong (top : String) (way : List Nat) : String :=
  "-".intercalate (top :: way.map toString)

theorem idAlong_cons (top : String) (position : Nat) (way : List Nat) :
    idAlong top (position :: way) = idAlong (idOfChild top position) way := rfl

namespace Branch

/-- The branch to which a way leads, if it does not leave the tree. -/
def descend? (branch : Branch α) : List Nat → Option (Branch α)
  | [] => some branch
  | position :: way => branch.children[position]?.bind fun child => child.descend? way

theorem Linked.id_descend {tree branch : Branch α} {way : List Nat}
    (named : Linked NamedAfter tree) (reached : tree.descend? way = some branch) :
    branch.id = idAlong tree.id way := by
  induction way generalizing tree with
  | nil =>
      cases reached
      rfl
  | cons position way ih =>
      obtain ⟨child, listed, further⟩ := Option.bind_eq_some_iff.mp reached
      have childId : child.id = idOfChild tree.id position :=
        (named.link_of_mem (self_mem_preorder tree) listed).1
      have namedChild : Linked NamedAfter child :=
        named.of_mem_preorder
          (mem_preorder_of_child (List.mem_of_getElem? listed) (self_mem_preorder child))
      rw [ih namedChild further, childId, idAlong_cons]

/-- Every branch of a tree but the whole tree is the child of one. -/
theorem exists_parent {tree branch : Branch α} (member : branch ∈ tree.preorder) :
    branch = tree ∨
      ∃ parent ∈ tree.preorder, ∃ position : Nat, parent.children[position]? = some branch := by
  induction tree with
  | node segment children ih =>
      rw [preorder_node, List.mem_cons, List.mem_flatMap] at member
      rcases member with top | ⟨child, childMember, below⟩
      · exact .inl top
      · right
        rcases ih child childMember below with rfl | ⟨parent, parentMember, position, listed⟩
        · obtain ⟨position, listed⟩ := List.mem_iff_getElem?.mp childMember
          exact ⟨_, self_mem_preorder _, position, listed⟩
        · exact ⟨parent, mem_preorder_of_child childMember parentMember, position, listed⟩

end Branch

end Topiary
