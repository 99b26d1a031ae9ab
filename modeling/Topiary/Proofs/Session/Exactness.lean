import Topiary.Proofs.Branch.Cutting
import Topiary.Proofs.Session.Steps

set_option autoImplicit false

/-!
# What one pruning takes away

A branch is looked up in the full tree, also if nothing of it shows any more, and what is
recorded is what the full tree has there. The record may name segments that the tree does
not have, or not all that grows from a segment it names; the next pruned tree is the one
before, pruned in one more place, all the same.
-/

namespace Topiary

theorem Branch.mem_takenFrom_iff {α : Type} {tree : Branch α} {id below : String}
    (distinct : tree.DistinctIds) :
    below ∈ tree.takenFrom id ↔
      id ≠ rootId ∧ ∃ branch ∈ tree.preorder, branch.id = id ∧ below ∈ branch.idSet := by
  rw [takenFrom]
  by_cases root : id = rootId
  · simp [root]
  · rw [if_neg root, mem_idsFrom_iff distinct]
    exact (and_iff_right root).symm

theorem Branch.takenFrom_eq_empty {α : Type} {tree : Branch α} {id : String}
    (nothing : id = rootId ∨ id ∉ tree.idSet) : tree.takenFrom id = ∅ := by
  rw [takenFrom]
  by_cases root : id = rootId
  · exact if_pos root
  · rw [if_neg root, idsFrom_eq_empty_iff.mpr (nothing.resolve_left root)]

namespace Session

variable {start between : Session} {grown : GrownTree}

/-- In every session that shows a full tree, pruning a branch gives and records what this tree
has at and under the branch; for the root and for an unknown branch this is nothing. Of the
parameters nothing changes, the full tree stays, and the pruned tree becomes the one before,
pruned at this branch. The pruned tree shows the segments of the full tree that the record does
not cut off, in their order. -/
theorem prune_afterAll (fresh : start.grown = none) (operations : List Operation)
    (whole : (start.afterAll operations).wholeTree = .ok (grown, between)) (id : String) :
    let session := start.afterAll operations
    let tree := grown.tree
    let gone := session.pruned.ids
    let taken := tree.takenFrom id
    (∀ below, below ∈ taken ↔
        id ≠ rootId ∧ ∃ branch ∈ tree.traverse, branch.id = id ∧ below ∈ branch.idSet) ∧
      (id = rootId ∨ id ∉ tree.idSet → taken = ∅) ∧
      (∃ next, session.prune id = .ok (taken, next) ∧
        next = { session with
          pruned := session.pruned.including taken
          grown := next.grown
          growths := next.growths } ∧
        (∃ again last, next.wholeTree = .ok (again, last) ∧ again.tree = tree) ∧
        (id ≠ rootId → ∃ last,
          next.trimmedTree = .ok ((tree.without gone).without (IdSet.ofIds [id]), last))) ∧
      session.trimmedTree = .ok (tree.without gone, between) ∧
      (tree.without gone).traverse.map Branch.segment =
        (tree.traverse.filter fun branch => ¬ tree.CutOff gone branch.id).map
          Branch.segment := by
  intro session tree gone taken
  have coherent : session.Coherent := (Coherent.of_fresh fresh).afterAll operations
  have distinct : tree.DistinctIds := coherent.distinctIds_of_wholeTree whole
  obtain ⟨next, pruned, changed, kept⟩ := prune_of_wholeTree whole id
  have shownAgain : ∃ again last, next.wholeTree = .ok (again, last) ∧ again.tree = tree := by
    rcases kept with held | ⟨-, rfl⟩
    · have sameRecipe : next.recipe = session.recipe := by
        rw [changed]
        rfl
      exact coherent.wholeTree_again whole sameRecipe held
    · exact ⟨grown, between, whole, rfl⟩
  refine ⟨?_, Branch.takenFrom_eq_empty, ⟨next, pruned, changed, shownAgain, ?_⟩,
    trimmedTree_of_wholeTree whole, ?_⟩
  · intro below
    rw [Branch.mem_takenFrom_iff distinct, Branch.traverse_eq_preorder]
  · intro notRoot
    obtain ⟨again, last, wholeAgain, same⟩ := shownAgain
    refine ⟨last, ?_⟩
    have record : next.pruned.ids = gone ∪ tree.idsFrom id := by
      rw [changed, Branch.takenFrom, if_neg notRoot]
      rfl
    have notTop : id ≠ tree.id :=
      Recipe.id_of_grow (coherent.grows_of_wholeTree whole) ▸ notRoot
    rw [trimmedTree_of_wholeTree wholeAgain, same, record, Branch.without_eq distinct,
      Branch.without_eq distinct, Branch.without_eq (distinct.pruned gone),
      Branch.pruned_union_idsFrom distinct notTop]
  · rw [Branch.without_eq distinct, Branch.traverse_eq_preorder, Branch.traverse_eq_preorder,
      Branch.segments_pruned, Branch.shown_eq_filter distinct]

/-- A session in which every segment becomes two in each generation. -/
def hedge : Session := { initial with
  species := Catalog.entry "hedge" "Hedge" "Carpinus" "F" [("F", "FF")] 20 1
  iterations := .int 1 }

/-- A hedge shows a tree after one or two generations, with any angle and step. -/
theorem exists_wholeTree_hedge {session : Session} {numbers : Float × Float}
    (isHedge : session.species = hedge.species)
    (few : session.iterations = .int 1 ∨ session.iterations = .int 2)
    (parameters : drawingParameters session.angle session.stepSize = .ok numbers) :
    ∃ grown between, session.wholeTree = .ok (grown, between) := by
  obtain ⟨key, keyed⟩ : ∃ key, session.recipe.key = .ok key := by
    rw [recipe, isHedge]
    exact ⟨_, rfl⟩
  obtain ⟨tree, grows⟩ : ∃ tree, session.recipe.grow none = .ok tree := by
    rw [recipe, isHedge]
    rcases few with iterations | iterations
    all_goals
      rw [iterations]
      exact ⟨_, (Recipe.grow_of_le rfl "F" ⟨[("F", "FF")]⟩ _ _ none (by decide)).trans
        ((drawTree_eq _ parameters).trans rfl)⟩
  exact exists_wholeTree keyed grows

/-- The record names a segment that comes into being when the iterations change, and nothing of
what grows from it. -/
theorem prune_afterAll_outgrown :
    let start : Session := { hedge with pruned := ⟨IdSet.ofIds ["root-0-0-0"], []⟩ }
    let session := start.afterAll [.withIterations (.int 2)]
    start.grown = none ∧ ∃ grown between, session.wholeTree = .ok (grown, between) ∧
      ∃ next, session.prune "root-0" = .ok (grown.tree.takenFrom "root-0", next) := by
  intro start session
  have fresh : start.grown = none := rfl
  obtain ⟨grown, between, whole⟩ : ∃ grown between, session.wholeTree = .ok (grown, between) :=
    exists_wholeTree_hedge rfl (.inr rfl) rfl
  obtain ⟨-, -, ⟨next, pruned, -⟩, -⟩ :=
    prune_afterAll fresh [.withIterations (.int 2)] whole "root-0"
  exact ⟨fresh, grown, between, whole, next, pruned⟩

end Session

end Topiary
