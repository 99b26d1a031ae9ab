import Topiary.Drawing.Arena
import Topiary.Proofs.Branch.Links
import Topiary.Proofs.Branch.Shelves

set_option autoImplicit false

/-!
# Arenas hold trees

An arena holds a tree if it has every segment under its id, with the ids of its children
in order. Such an arena gives the tree back: in the reverse order of the walk each
segment finds itself in the arena and all its children on the shelf.
-/

namespace Topiary

variable {α : Type}

def Draft.entry (draft : Draft α) : Entry α :=
  ⟨draft.segment, draft.childIds.toList⟩

namespace Arena

/-- Every entry of a list is in the arena under its id. -/
def Holds (arena : Arena α) (entries : List (Entry α)) : Prop :=
  ∀ entry ∈ entries, (arena[entry.id]?).map Draft.entry = some entry

theorem holds_initial [Scalar α] :
    Holds (initial : Arena α) [Entry.ofBranch (.node Segment.root [])] := by
  intro entry member
  obtain rfl : entry = Entry.ofBranch (.node Segment.root []) := by simpa using member
  simp [initial, Entry.id, Entry.ofBranch, Segment.root, Draft.entry, Draft.bare]

/-! ## Adding a segment -/

theorem getElem?_add (arena : Arena α) (parent : String) (segment : Segment α) (id : String) :
    (arena.add parent segment)[id]? =
      if segment.id = id then some (Draft.bare segment)
      else if parent = id then (arena[id]?).map (Draft.noteChild segment.id)
      else arena[id]? := by
  rw [add, Std.HashMap.getElem?_insert, Std.HashMap.getElem?_modify]
  by_cases atParent : parent = id
  · subst atParent
    simp only [beq_iff_eq, ↓reduceIte]
  · simp only [beq_iff_eq, if_neg atParent]

/-- After a segment was drawn, the arena holds it, its parent lists it last, and all other entries
are as they were. -/
theorem Holds.add {arena : Arena α} {entries grown : List (Entry α)} {owner segment : Segment α}
    {childIds : List String} (holds : Holds arena entries) (listed : ⟨owner, childIds⟩ ∈ entries)
    (fresh : segment.id ∉ entries.map Entry.id)
    (growth : ∀ entry ∈ grown, (entry ∈ entries ∧ entry.id ≠ owner.id) ∨
      entry = ⟨owner, childIds ++ [segment.id]⟩ ∨ entry = ⟨segment, []⟩) :
    Holds (arena.add owner.id segment) grown := by
  have notNew : ∀ entry ∈ entries, segment.id ≠ entry.id := by
    intro entry member same
    exact fresh (same ▸ List.mem_map_of_mem member)
  intro entry member
  rcases growth entry member with ⟨old, notOwner⟩ | rfl | rfl
  · rw [getElem?_add, if_neg (notNew entry old), if_neg notOwner.symm]
    exact holds entry old
  · have found : (arena[owner.id]?).map Draft.entry = some ⟨owner, childIds⟩ := holds _ listed
    have ownerNotNew : segment.id ≠ owner.id := notNew _ listed
    obtain ⟨draft, atOwner, isEntry⟩ := Option.map_eq_some_iff.mp found
    obtain ⟨sameSegment, sameChildren⟩ := Entry.mk.inj isEntry
    change ((arena.add owner.id segment)[owner.id]?).map Draft.entry = _
    rw [getElem?_add, if_neg ownerNotNew, if_pos rfl, atOwner]
    simp [Draft.entry, Draft.noteChild, sameSegment, sameChildren]
  · rw [Entry.id, getElem?_add, if_pos rfl]
    rfl

/-! ## Freezing -/

/-- Freezing the segments of the pending branches in the reverse order of the walk puts the
branches on the shelf, and touches no other part of the arena. -/
theorem freezeAll_pending (pending : List (Branch α)) (arena : Arena α) (rest : List String)
    (holds : Holds arena ((Branch.preorderAll pending).map Entry.ofBranch))
    (distinct : (Branch.idsOfAll pending).Nodup) :
    ∃ (left : Arena α) (shelf : Branch.Shelf α),
      freezeAll arena ∅ ((Branch.idsOfAll pending).reverse ++ rest) = freezeAll left shelf rest ∧
        (∀ id ∉ Branch.idsOfAll pending, left[id]? = arena[id]?) ∧
        Branch.Shelf.Holds shelf pending := by
  -- In the walk a branch comes right before its children, so in the reverse order they have all
  -- been finished when its turn comes, and wait on the shelf before its later neighbours.
  induction pending using Branch.pending_induction generalizing rest with
  | nil => exact ⟨arena, ∅, by simp, fun _ _ => rfl, .empty⟩
  | visit branch others ih =>
      have ids : Branch.idsOfAll (branch :: others) =
          branch.id :: Branch.idsOfAll (branch.children ++ others) := by
        rw [Branch.idsOfAll_cons, Branch.idsOfAll_append]
      rw [ids] at distinct ⊢
      rw [Branch.preorderAll_cons, List.map_cons] at holds
      rw [List.nodup_cons] at distinct
      obtain ⟨left, shelf, freezing, kept, waits⟩ := ih (branch.id :: rest)
        (fun entry member => holds entry (List.mem_cons_of_mem _ member)) distinct.2
      have found : (arena[branch.id]?).map Draft.entry = some (Entry.ofBranch branch) :=
        holds _ List.mem_cons_self
      rw [← kept branch.id distinct.1] at found
      obtain ⟨draft, atBranch, isEntry⟩ := Option.map_eq_some_iff.mp found
      obtain ⟨sameSegment, sameChildren⟩ := Entry.mk.inj isEntry
      obtain ⟨remaining, claims, remainingHolds⟩ := Branch.claimAll_map_id #[] waits
        (distinct.2.sublist (Branch.map_id_sublist _))
      have whole : Branch.node draft.segment branch.children = branch := by
        rw [sameSegment]
        exact Branch.carrying_children branch
      have fresh : branch.id ∉ others.map Branch.id := by
        intro member
        apply distinct.1
        rw [Branch.idsOfAll_append]
        exact List.mem_append_right _ ((Branch.map_id_sublist others).subset member)
      refine ⟨left.erase branch.id, remaining.insert branch.id branch, ?_, ?_,
        remainingHolds.insert fresh⟩
      · rw [List.reverse_cons, List.append_assoc, List.singleton_append, freezing, freezeAll,
          atBranch]
        simp only [sameChildren, claims, List.nil_append, whole]
      · intro id absent
        rw [List.mem_cons, not_or] at absent
        rw [Std.HashMap.getElem?_erase, if_neg (by simpa using Ne.symm absent.1),
          kept id absent.2]

theorem freeze_eq {arena : Arena α} {tree : Branch α}
    (holds : Holds arena (tree.preorder.map Entry.ofBranch)) (distinct : tree.DistinctIds)
    (top : tree.id = rootId) : arena.freeze (tree.preorder.map Branch.id) = .ok tree := by
  have alone := Branch.preorderAll_single tree
  have ids : Branch.idsOfAll [tree] = tree.preorder.map Branch.id := by
    rw [Branch.idsOfAll, alone]
  obtain ⟨left, shelf, freezing, -, waits⟩ := freezeAll_pending [tree] arena [] (alone ▸ holds)
    ((Branch.distinctIds_iff tree).mp distinct)
  rw [ids, List.append_nil, freezeAll] at freezing
  have found : shelf[tree.id]? = some tree := waits.get List.mem_cons_self
  rw [top] at found
  rw [freeze, freezing]
  simp only [found]

end Arena

end Topiary
