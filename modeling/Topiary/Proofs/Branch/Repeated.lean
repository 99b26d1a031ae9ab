import Mathlib.Data.List.Permutation
import Topiary.Proofs.Branch.Shelves
import Topiary.Proofs.Branch.Visible

set_option autoImplicit false

/-!
# Pruning where ids repeat

In a tree from a document ids may repeat. A branch can then be taken by another parent
than its own, and a branch that waits can be replaced by a later one with the same id.
Still nothing is taken that does not wait, and since each branch is taken once, all that
is put together from the survivors are survivors, none of them more often than before.
-/

namespace Topiary.Branch

variable {α : Type} {gone : IdSet}

/-! ## Survivors -/

theorem survivorsFrom_append (gone : IdSet) (pending found earlier : List (Branch α)) :
    survivorsFrom gone pending (found ++ earlier) = survivorsFrom gone pending found ++ earlier := by
  fun_induction survivorsFrom gone pending found with
  | case1 found => rw [survivorsFrom]
  | case2 found branch rest ih => rw [survivorsFrom, ← ih, List.cons_append]

/-- The survivors are what the pending branches show, in some order. -/
theorem survivorsFrom_perm (gone : IdSet) (pending found : List (Branch α)) :
    (survivorsFrom gone pending found).Perm (pending.flatMap (shown gone) ++ found) := by
  fun_induction survivorsFrom gone pending found with
  | case1 found => exact .refl _
  | case2 found branch rest ih =>
      obtain ⟨segment, children⟩ := branch
      have order : ((unhidden gone children).reverse.flatMap (shown gone)).Perm
          ((unhidden gone children).flatMap (shown gone)) :=
        (List.reverse_perm _).flatMap_right _
      rw [children_node, List.flatMap_append, List.append_assoc] at ih
      rw [List.flatMap_cons, shown_node, List.cons_append, List.cons_append, List.append_assoc]
      refine ih.trans ((order.append_right _).trans ?_)
      rw [← List.append_assoc, ← List.append_assoc]
      exact List.perm_middle

theorem mem_unhidden_iff {branches : List (Branch α)} {branch : Branch α} :
    branch ∈ unhidden gone branches ↔ branch ∈ branches ∧ branch.id ∉ gone := by
  rw [unhidden, List.mem_filter, Bool.not_eq_true', ← Bool.not_eq_true,
    ← Std.ExtTreeSet.mem_iff_contains]

theorem not_mem_of_mem_shown {tree branch : Branch α} (topShown : tree.id ∉ gone)
    (member : branch ∈ tree.shown gone) : branch.id ∉ gone := by
  induction tree with
  | node segment children ih =>
      rw [shown_node, List.mem_cons, List.mem_flatMap] at member
      rcases member with rfl | ⟨child, childMember, below⟩
      · exact topShown
      · obtain ⟨known, childShown⟩ := mem_unhidden_iff.mp childMember
        exact ih child known childShown below

theorem not_mem_of_mem_visible {tree branch : Branch α} (member : branch ∈ tree.visible gone) :
    branch.id ∉ gone := by
  rw [visible_eq_shownAll, shownAll_eq_flatMap, List.mem_flatMap] at member
  obtain ⟨child, childMember, below⟩ := member
  exact not_mem_of_mem_shown (mem_unhidden_iff.mp childMember).2 below

/-! ## The wood on a shelf -/

def segmentsOfAll (branches : List (Branch α)) : List (Segment α) :=
  (preorderAll branches).map segment

theorem segmentsOfAll_cons (branch : Branch α) (rest : List (Branch α)) :
    segmentsOfAll (branch :: rest) =
      branch.segment :: (segmentsOfAll branch.children ++ segmentsOfAll rest) := by
  simp [segmentsOfAll, preorderAll, preorder_eq branch]

theorem segmentsOfAll_append (first second : List (Branch α)) :
    segmentsOfAll (first ++ second) = segmentsOfAll first ++ segmentsOfAll second := by
  simp [segmentsOfAll, preorderAll_append]

theorem segmentsOfAll_perm {first second : List (Branch α)} (same : first.Perm second) :
    (segmentsOfAll first).Perm (segmentsOfAll second) := by
  simp only [segmentsOfAll, preorderAll_eq_flatMap]
  exact (same.flatMap_right preorder).map segment

theorem segmentsOfAll_sublist {first second : List (Branch α)} (fewer : first.Sublist second) :
    (segmentsOfAll first).Sublist (segmentsOfAll second) := by
  simp only [segmentsOfAll, preorderAll_eq_flatMap]
  exact (fewer.flatMap preorder).map segment

/-- A branch that is put on a shelf takes the place of one that waits there under the same id. -/
theorem Shelf.Holds.overwrite {shelf : Shelf α} {waiting : List (Branch α)}
    (holds : Shelf.Holds shelf waiting) (branch : Branch α) :
    Shelf.Holds (shelf.insert branch.id branch)
      (branch :: waiting.filter fun other => other.id ≠ branch.id) := by
  intro id other
  rw [Std.HashMap.getElem?_insert, List.mem_cons, List.mem_filter, decide_eq_true_eq]
  by_cases same : branch.id = id
  · subst same
    rw [if_pos (beq_self_eq_true _), Option.some_inj]
    constructor
    · rintro rfl
      exact ⟨.inl rfl, rfl⟩
    · rintro ⟨rfl | ⟨-, different⟩, sameId⟩
      · rfl
      · exact absurd sameId different
  · rw [if_neg (by simpa using same), holds id other]
    constructor
    · rintro ⟨member, rfl⟩
      exact ⟨.inr ⟨member, Ne.symm same⟩, rfl⟩
    · rintro ⟨rfl | ⟨member, -⟩, sameId⟩
      · exact absurd sameId same
      · exact ⟨member, sameId⟩

/-- A shelf on which no more wood waits than the given segments. -/
def Shelf.Within (shelf : Shelf α) (segments : List (Segment α)) : Prop :=
  ∃ waiting, Shelf.Holds shelf waiting ∧ (waiting.map Branch.id).Nodup ∧
    (segmentsOfAll waiting).Subperm segments

/-- What is taken from a shelf and what remains on it are what waited there. -/
theorem exists_taken (children : List (Branch α)) (taken : Array (Branch α)) {shelf : Shelf α}
    {waiting : List (Branch α)} (holds : Shelf.Holds shelf waiting)
    (unrepeated : (waiting.map Branch.id).Nodup) :
    ∃ adopted left rest,
      children.foldl takeChild (taken, shelf) = ((taken.toList ++ adopted).toArray, rest) ∧
        Shelf.Holds rest left ∧ (adopted ++ left).Perm waiting := by
  induction children generalizing taken shelf waiting with
  | nil => exact ⟨[], waiting, shelf, by simp, holds, .refl _⟩
  | cons child children ih =>
      rw [List.foldl_cons, takeChild]
      cases found : shelf[child.id]? with
      | none => exact ih taken holds unrepeated
      | some finished =>
          obtain ⟨member, sameId⟩ := (holds child.id finished).mp found
          obtain ⟨front, back, rfl⟩ := List.append_of_mem member
          have reordered : (front ++ finished :: back).Perm (finished :: (front ++ back)) :=
            List.perm_middle
          have others := (reordered.map Branch.id).nodup_iff.mp unrepeated
          rw [List.map_cons, List.nodup_cons] at others
          obtain ⟨adopted, left, rest, takes, restHolds, same⟩ :=
            ih (taken.push finished) ((holds.perm reordered).erase others.1) others.2
          refine ⟨finished :: adopted, left, rest, ?_, restHolds, ?_⟩
          · simp only [← sameId, takes]
            simp
          · exact (same.cons finished).trans reordered.symm

theorem exists_adopted {shelf : Shelf α} {segments : List (Segment α)}
    (within : shelf.Within segments) (branch : Branch α) :
    ∃ adopted left rest, adopt shelf branch = (branch.carrying adopted, rest) ∧
      Shelf.Holds rest left ∧ (left.map Branch.id).Nodup ∧
      (segmentsOfAll adopted ++ segmentsOfAll left).Subperm segments := by
  obtain ⟨waiting, holds, unrepeated, bounded⟩ := within
  obtain ⟨adopted, left, rest, takes, restHolds, same⟩ :=
    exists_taken branch.children #[] holds unrepeated
  refine ⟨adopted, left, rest, by simp [adopt, takes], restHolds, ?_, ?_⟩
  · have apart := (same.map Branch.id).nodup_iff.mpr unrepeated
    rw [List.map_append] at apart
    exact apart.of_append_right
  · rw [← segmentsOfAll_append]
    exact (segmentsOfAll_perm same).subperm.trans bounded

theorem Shelf.Within.shelve {shelf : Shelf α} {segments : List (Segment α)}
    (within : shelf.Within segments) (branch : Branch α) :
    (Branch.shelve shelf branch).Within (branch.segment :: segments) := by
  obtain ⟨adopted, left, rest, adopts, restHolds, unrepeated, bounded⟩ :=
    exists_adopted within branch
  have kept : (left.filter fun other => other.id ≠ branch.id).Sublist left := List.filter_sublist
  refine ⟨branch.carrying adopted :: left.filter fun other => other.id ≠ branch.id, ?_, ?_, ?_⟩
  · rw [Branch.shelve, adopts]
    exact restHolds.overwrite (branch.carrying adopted)
  · rw [List.map_cons, List.nodup_cons]
    refine ⟨?_, unrepeated.sublist (kept.map Branch.id)⟩
    intro member
    obtain ⟨other, otherMember, sameId⟩ := List.mem_map.mp member
    exact of_decide_eq_true (List.mem_filter.mp otherMember).2 sameId
  · rw [segmentsOfAll_cons, segment_carrying, children_carrying, List.subperm_cons]
    exact (((segmentsOfAll_sublist kept).append_left _).subperm).trans bounded

theorem within_foldl_shelve (survivors : List (Branch α)) {shelf : Shelf α}
    {segments : List (Segment α)} (within : shelf.Within segments) :
    (survivors.foldl shelve shelf).Within (survivors.map segment ++ segments) := by
  induction survivors generalizing shelf segments with
  | nil => exact within
  | cons branch rest ih =>
      obtain ⟨waiting, holds, unrepeated, bounded⟩ := ih (within.shelve branch)
      exact ⟨waiting, holds, unrepeated, bounded.trans List.perm_middle.subperm⟩

theorem Shelf.within_empty : Shelf.Within (∅ : Shelf α) [] :=
  ⟨[], .empty, List.nodup_nil, by simp [segmentsOfAll, preorderAll]⟩

/-! ## Trees put together anew -/

theorem segment_rebuilt (tree : Branch α) (gone : IdSet) :
    (tree.rebuilt gone).segment = tree.segment := rfl

/-- A tree that is put together anew consists of segments that the tree shows. -/
theorem subperm_rebuilt (tree : Branch α) (gone : IdSet) :
    ((tree.rebuilt gone).preorder.map segment).Subperm ((tree.shown gone).map segment) := by
  have within := within_foldl_shelve
    (survivorsFrom gone (unhidden gone tree.children).reverse []) Shelf.within_empty
  obtain ⟨adopted, left, rest, adopts, -, -, bounded⟩ := exists_adopted within tree
  have survive : (survivorsFrom gone (unhidden gone tree.children).reverse []).Perm
      (tree.visible gone) := by
    rw [visible_eq_shownAll, shownAll_eq_flatMap]
    refine (survivorsFrom_perm gone _ []).trans ?_
    rw [List.append_nil]
    exact (List.reverse_perm _).flatMap_right _
  have rebuilds : tree.rebuilt gone = tree.carrying adopted := congrArg Prod.fst adopts
  rw [rebuilds, preorder_eq, shown_eq_visible, List.map_cons, List.map_cons, segment_carrying,
    children_carrying, List.subperm_cons]
  rw [List.append_nil] at bounded
  exact ((List.sublist_append_left _ _).subperm.trans bounded).trans
    (survive.map segment).subperm

theorem segment_without (tree : Branch α) (gone : IdSet) :
    (tree.without gone).segment = tree.segment := by
  rw [without]
  split
  · rfl
  · exact segment_rebuilt tree gone

theorem subperm_without (tree : Branch α) (gone : IdSet) :
    ((tree.without gone).preorder.map segment).Subperm ((tree.shown gone).map segment) := by
  by_cases none : gone.isEmpty = true
  · obtain rfl : gone = ∅ := Std.ExtTreeSet.isEmpty_iff.mp none
    rw [without, if_pos none, carrying_children, shown_empty]
  · rw [without, if_neg none]
    exact subperm_rebuilt tree gone

/-! ## Lookups that could miss -/

/-- Takes the branch with the id of one child from the shelf after a test that it is there. To take
what is not there is a fault. -/
def claimChild (taken : Array (Branch α) × Shelf α) (child : Branch α) :
    Except Fault (Array (Branch α) × Shelf α) :=
  if taken.2.contains child.id then claimAll taken.1 taken.2 [child.id] else .ok taken

def shelveClaimed (shelf : Shelf α) (branch : Branch α) : Except Fault (Shelf α) :=
  (branch.children.foldlM claimChild (#[], shelf)).map fun (taken, rest) =>
    rest.insert branch.id (branch.carrying taken.toList)

/-- Puts a tree together anew. The top is shelved last, like any other survivor, and looked up by
its id in the end. -/
def rebuiltByLookup (tree : Branch α) (gone : IdSet) : Except Fault (Branch α) :=
  match (survivorsFrom gone [tree] []).foldlM shelveClaimed ∅ with
  | .error fault => .error fault
  | .ok shelf =>
    match shelf[tree.id]? with
    | some finished => .ok finished
    | none => .error (.unknownSegment tree.id)

def withoutByLookup (tree : Branch α) (gone : IdSet) : Except Fault (Branch α) :=
  if gone.isEmpty then .ok (tree.carrying tree.children) else tree.rebuiltByLookup gone

theorem claimChild_eq (taken : Array (Branch α) × Shelf α) (child : Branch α) :
    claimChild taken child = .ok (takeChild taken child) := by
  rw [claimChild, takeChild, Std.HashMap.contains_eq_isSome_getElem?]
  cases found : taken.2[child.id]? with
  | none => rfl
  | some finished => simp only [Option.isSome_some, ↓reduceIte, claimAll, found]

theorem shelveClaimed_eq (shelf : Shelf α) (branch : Branch α) :
    shelveClaimed shelf branch = .ok (shelve shelf branch) := by
  have claims : (claimChild : Array (Branch α) × Shelf α → _) =
      fun taken child => pure (takeChild taken child) :=
    funext fun taken => funext fun child => claimChild_eq taken child
  rw [shelveClaimed, claims, List.foldlM_pure]
  rfl

/-- No lookup misses: the test and the taking agree for each child, and the top is there in the
end. -/
theorem rebuiltByLookup_eq (tree : Branch α) (gone : IdSet) :
    tree.rebuiltByLookup gone = .ok (tree.rebuilt gone) := by
  have shelves : (shelveClaimed : Shelf α → _) = fun shelf branch => pure (shelve shelf branch) :=
    funext fun shelf => funext fun branch => shelveClaimed_eq shelf branch
  have last : survivorsFrom gone [tree] [] =
      survivorsFrom gone (unhidden gone tree.children).reverse [] ++ [tree] := by
    rw [survivorsFrom, List.append_nil]
    exact survivorsFrom_append gone _ [] [tree]
  have shelved : (survivorsFrom gone [tree] []).foldlM shelveClaimed ∅ = .ok (shelve
      ((survivorsFrom gone (unhidden gone tree.children).reverse []).foldl shelve ∅) tree) := by
    rw [last, shelves, List.foldlM_pure, List.foldl_append]
    rfl
  have found : ∀ shelf : Shelf α, (shelve shelf tree)[tree.id]? = some (adopt shelf tree).1 :=
    fun shelf => Std.HashMap.getElem?_insert_self
  simp only [rebuiltByLookup, shelved, found]
  rfl

/-! ## All trees -/

/-- Whatever the ids of a tree are, no lookup misses when it is pruned. The top keeps its segment, no
id of the set is left below it, and all segments are survivors, each as often at most as it
survives. -/
theorem without_gains_nothing (tree : Branch α) (gone : IdSet) :
    tree.withoutByLookup gone = .ok (tree.without gone) ∧
      (tree.without gone).segment = tree.segment ∧
      (∀ branch ∈ (tree.without gone).descendants, branch.id ∉ gone) ∧
      ((tree.without gone).traverse.map segment).Subperm ((tree.shown gone).map segment) := by
  have bounded := subperm_without tree gone
  refine ⟨?_, segment_without tree gone, ?_, ?_⟩
  · rw [withoutByLookup, without, rebuiltByLookup_eq]
    split <;> rfl
  · intro branch member
    rw [preorder_eq, ← descendants_eq_preorderAll, shown_eq_visible, List.map_cons, List.map_cons,
      segment_without, List.subperm_cons] at bounded
    obtain ⟨survivor, shown, sameSegment⟩ :=
      List.mem_map.mp (bounded.subset (List.mem_map_of_mem member))
    have sameId : survivor.id = branch.id := congrArg Segment.id sameSegment
    exact sameId ▸ not_mem_of_mem_visible shown
  · rw [traverse_eq_preorder]
    exact bounded

/-- A tree in which a segment has the id of the top and three others share one. -/
def tangle : Branch Nat :=
  unextended "root" .null [
    unextended "a" (.text "root") [
      unextended "b" (.text "a") [],
      unextended "a" (.text "b") []],
    unextended "a" .null [unextended "root" (.text "root") []]]

/-- Two siblings share their id with a branch below the first one. This one takes that branch, and
is then replaced on the shelf by its sibling. The set names the top too, which stays. -/
theorem without_gains_nothing_tangle :
    let gone := IdSet.ofIds ["b", "root"]
    tangle.withoutByLookup gone = .ok (tangle.without gone) ∧
      (tangle.without gone).traverse.map Branch.id = ["root", "a"] ∧
      (tangle.shown gone).map Branch.id = ["root", "a", "a", "a"] ∧
      ((tangle.without gone).traverse.map segment).Subperm ((tangle.shown gone).map segment) := by
  intro gone
  obtain ⟨found, -, -, bounded⟩ := without_gains_nothing tangle gone
  refine ⟨found, ?_, rfl, bounded⟩
  rw [traverse_eq_preorder]
  cbv

end Topiary.Branch
