import Topiary.Proofs.Branch.Distinct
import Topiary.Proofs.Branch.Ids

set_option autoImplicit false

/-!
# Links between parents and children

A property of a whole tree is often a relation between each parent, the position of a
child and that child. Such a tree stays linked when a branch is added behind the
children of a segment, if the new link holds. The ids of a tree form one such relation,
and it leaves no two segments with the same id.
-/

namespace Topiary.Branch

variable {α : Type}

inductive Linked (link : Segment α → Nat → Segment α → Prop) : Branch α → Prop where
  | node {segment : Segment α} {children : List (Branch α)} :
      (∀ position child, children[position]? = some child → link segment position child.segment) →
      (∀ child ∈ children, Linked link child) → Linked link (.node segment children)

namespace Linked

variable {link : Segment α → Nat → Segment α → Prop}

theorem bare (segment : Segment α) : Linked link (.node segment []) :=
  .node (by simp) (by simp)

theorem of_mem_preorder {tree branch : Branch α} (linked : Linked link tree)
    (member : branch ∈ tree.preorder) : Linked link branch := by
  induction linked with
  | @node segment children links linkedChildren ih =>
      rw [preorder_node, List.mem_cons, List.mem_flatMap] at member
      rcases member with rfl | ⟨child, childMember, below⟩
      · exact .node links linkedChildren
      · exact ih child childMember below

theorem link_of_mem {tree parent child : Branch α} {position : Nat} (linked : Linked link tree)
    (member : parent ∈ tree.preorder) (listed : parent.children[position]? = some child) :
    link parent.segment position child.segment := by
  cases linked.of_mem_preorder member with
  | node links _ => exact links position child listed

theorem exists_link {tree parent child : Branch α} (linked : Linked link tree)
    (member : parent ∈ tree.traverse) (childMember : child ∈ parent.children) :
    ∃ position, link parent.segment position child.segment := by
  rw [traverse_eq_preorder] at member
  obtain ⟨position, listed⟩ := List.mem_iff_getElem?.mp childMember
  exact ⟨position, linked.link_of_mem member listed⟩

theorem mono {other : Segment α → Nat → Segment α → Prop}
    (weaker : ∀ parent position child, link parent position child → other parent position child)
    {tree : Branch α} (linked : Linked link tree) : Linked other tree := by
  induction linked with
  | node links _ ih => exact .node (fun _ _ listed => weaker _ _ _ (links _ _ listed)) ih

end Linked

theorem getElem?_append_singleton_cases {τ : Type} {front : List τ} {last found : τ}
    {position : Nat} (listed : (front ++ [last])[position]? = some found) :
    front[position]? = some found ∨ position = front.length ∧ found = last := by
  by_cases bound : position < front.length
  · rw [List.getElem?_append_left bound] at listed
    exact .inl listed
  · rw [List.getElem?_append_right (by omega), List.getElem?_singleton] at listed
    split at listed
    · cases listed
      exact .inr ⟨by omega, rfl⟩
    · cases listed

/-- Adding a branch behind the children of the top adds one link. -/
theorem linked_append_iff {link : Segment α → Nat → Segment α → Prop} {segment : Segment α}
    {children : List (Branch α)} {last : Branch α} :
    Linked link (.node segment (children ++ [last])) ↔
      Linked link (.node segment children) ∧ link segment children.length last.segment ∧
        Linked link last := by
  constructor
  · intro linked
    cases linked with
    | node links linkedChildren =>
        refine ⟨.node ?_ ?_, ?_, linkedChildren last (by simp)⟩
        · intro position child listed
          have bound := (List.getElem?_eq_some_iff.mp listed).1
          exact links position child (by rwa [List.getElem?_append_left bound])
        · intro child member
          exact linkedChildren child (List.mem_append_left _ member)
        · exact links children.length last (by simp)
  · rintro ⟨linked, lastLink, linkedLast⟩
    cases linked with
    | node links linkedChildren =>
        refine .node ?_ ?_
        · intro position child listed
          rcases getElem?_append_singleton_cases listed with earlier | ⟨rfl, rfl⟩
          · exact links position child earlier
          · exact lastLink
        · intro child member
          rcases List.mem_append.mp member with earlier | added
          · exact linkedChildren child earlier
          · obtain rfl : child = last := by simpa using added
            exact linkedLast

/-- Where the position plays no part in a relation, it also holds between what stays after
pruning. -/
theorem Linked.pruned {link : Segment α → Nat → Segment α → Prop} {tree : Branch α}
    (linked : Linked link tree)
    (anywhere : ∀ parent position other child,
      link parent position child → link parent other child)
    (gone : IdSet) : Linked link (tree.pruned gone) := by
  induction linked with
  | @node segment children links _ ih =>
      have kept : ∀ branch ∈ (unhidden gone children).map (Branch.pruned gone),
          ∃ child ∈ children, child.pruned gone = branch := by
        intro branch member
        obtain ⟨child, childMember, same⟩ := List.mem_map.mp member
        exact ⟨child, List.mem_of_mem_filter childMember, same⟩
      rw [pruned_node]
      refine .node ?_ ?_
      · intro position branch listed
        obtain ⟨child, childMember, rfl⟩ := kept branch (List.mem_of_getElem? listed)
        obtain ⟨formerPosition, formerListed⟩ := List.mem_iff_getElem?.mp childMember
        rw [segment_pruned]
        exact anywhere _ _ _ _ (links formerPosition child formerListed)
      · intro branch member
        obtain ⟨child, childMember, rfl⟩ := kept branch member
        exact ih child childMember

/-! ## Ids -/

/-- A child that has the id of its position and names its parent. -/
def NamedAfter (parent : Segment α) (position : Nat) (child : Segment α) : Prop :=
  child.id = idOfChild parent.id position ∧ child.parentId = .text parent.id

/-- A child that names its parent and has the id of some position, whether or not siblings in
front of it have been taken away since. -/
def NamedFrom (parent : Segment α) (_ : Nat) (child : Segment α) : Prop :=
  ∃ position, NamedAfter parent position child

theorem Linked.namedFrom {tree : Branch α} (named : Linked NamedAfter tree) :
    Linked NamedFrom tree :=
  named.mono fun _ position _ link => ⟨position, link⟩

theorem Linked.atOrBelow {tree branch : Branch α} (named : Linked NamedFrom tree)
    (member : branch ∈ tree.preorder) : AtOrBelow tree.id branch.id := by
  induction named with
  | @node segment children links _ ih =>
      rw [preorder_node, List.mem_cons, List.mem_flatMap] at member
      rcases member with rfl | ⟨child, childMember, below⟩
      · exact .refl _
      · obtain ⟨position, listed⟩ := List.mem_iff_getElem?.mp childMember
        obtain ⟨childPosition, childId, -⟩ := links position child listed
        have childBelow : AtOrBelow segment.id child.id := by
          rw [Branch.id, childId]
          exact .child _ _
        exact childBelow.trans (ih child childMember below)

theorem Linked.distinctIds {tree : Branch α} (named : Linked NamedAfter tree) :
    tree.DistinctIds := by
  rw [DistinctIds, traverse_eq_preorder]
  induction named with
  | @node segment children links linkedChildren ih =>
      -- What grows from two children has ids that differ right after the id of the parent.
      have below : ∀ position child, children[position]? = some child →
          ∀ id ∈ child.preorder.map Branch.id, AtOrBelow (idOfChild segment.id position) id := by
        intro position child listed id member
        obtain ⟨branch, branchMember, rfl⟩ := List.mem_map.mp member
        have childMember := List.mem_of_getElem? listed
        have atOrBelow := (linkedChildren child childMember).namedFrom.atOrBelow branchMember
        rwa [Branch.id, (links position child listed).1] at atOrBelow
      rw [preorder_node, List.map_cons, List.map_flatMap, List.nodup_cons, List.nodup_flatMap]
      refine ⟨?_, fun child member => ih child member, ?_⟩
      · intro member
        obtain ⟨child, childMember, idMember⟩ := List.mem_flatMap.mp member
        obtain ⟨position, listed⟩ := List.mem_iff_getElem?.mp childMember
        exact AtOrBelow.not_child (below position child listed _ idMember)
      · rw [List.pairwise_iff_getElem]
        intro position otherPosition bound otherBound before id member otherMember
        have same := AtOrBelow.position_unique
          (below position _ (List.getElem?_eq_getElem bound) id member)
          (below otherPosition _ (List.getElem?_eq_getElem otherBound) id otherMember)
        omega

end Topiary.Branch
