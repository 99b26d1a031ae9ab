import Topiary.Proofs.Branch.Entries
import Topiary.Proofs.Growth.Outline
import Topiary.Service.Answer

set_option autoImplicit false

/-!
# Answers tell the whole tree

An answer lists the segments of a tree with the ids of their children. From this list alone
the tree can be put together again, and the numbers of the answer can be counted in it.
-/

namespace Topiary.Service

/-- An answer from which the tree can be told. -/
structure TreeAnswer.Tells (answer : TreeAnswer) (tree : Branch Float) : Prop where
  rootId : answer.rootId = tree.id
  first : answer.segments.head? = some (Entry.ofBranch tree)
  all : answer.segments = tree.preorder.map Entry.ofBranch
  once : (answer.segments.map Entry.id).Nodup
  childIds : ∀ front entry later, answer.segments = front ++ entry :: later →
    ∀ id ∈ entry.childIds,
      (answer.segments.map Entry.id).count id = 1 ∧ ∃ child ∈ later, child.id = id
  rebuilt : Branch.ofEntries? answer.segments = some tree
  reread : (((answer.toValue.get? "segments").bind Value.list?).bind
    (·.mapM Entry.ofValue?)).bind Branch.ofEntries? = some tree
  segmentCount : answer.statistics.segments = answer.segments.length - 1
  tipCount : answer.statistics.tips =
    answer.segments.tail.countP fun entry => entry.childIds.isEmpty

open Branch in
theorem TreeAnswer.tells {tree : Branch Float} {answer : TreeAnswer} {plan : Plan}
    (distinct : tree.DistinctIds) (answered : TreeAnswer.ofTree tree plan = .ok answer) :
    answer.Tells tree := by
  obtain ⟨count, -, rfl⟩ := map_eq_ok_iff.mp answered
  have listed : tree.entries = Entry.ofBranch tree :: tree.descendants.map Entry.ofBranch := by
    rw [entries, traverse_eq_descendants, List.map_cons]
  have leaf : (fun entry : Entry Float => entry.childIds.isEmpty) ∘ Entry.ofBranch =
      Branch.isLeaf := by
    funext branch
    simp [Entry.ofBranch, Branch.isLeaf]
  refine ⟨rfl, ?_, ?_, ?_, ?_, ofEntries?_entries distinct, ?_, ?_, ?_⟩
  · exact congrArg List.head? listed
  · exact congrArg (List.map Entry.ofBranch) (traverse_eq_preorder tree)
  · exact (Entry.map_id_ofBranch tree.traverse).symm ▸ distinct
  · intro front entry later split id named
    exact entries_childIds distinct split named
  · have segments : ((TreeAnswer.toValue ⟨tree.id, count, Statistics.ofTree tree, tree.entries,
        plan⟩).get? "segments").bind Value.list? = some (tree.entries.map Entry.toValue) := rfl
    rw [segments, Option.bind_some, mapM_map_eq_some fun entry _ => entry.ofValue?_toValue,
      Option.bind_some, ofEntries?_entries distinct]
  · change tree.descendants.length = tree.entries.length - 1
    rw [listed, List.length_cons, List.length_map, Nat.add_sub_cancel]
  · change tree.descendants.countP Branch.isLeaf = _
    rw [listed, List.tail_cons, List.countP_map, leaf]

/-- Every tree without repeated ids has an answer, from which it can be told. Trees that grow from a
recipe repeat no id, nor do they after pruning. -/
theorem TreeAnswer.ofTree_lossless {plan : Plan} {count : Value}
    (counted : plan.symbolCount = .ok count) :
    (∀ tree : Branch Float, tree.DistinctIds →
      ∃ answer, TreeAnswer.ofTree tree plan = .ok answer ∧ answer.Tells tree) ∧
    ∀ (recipe : Recipe) (limit : Option Value) (tree : Branch Float),
      recipe.grow limit = .ok tree →
        tree.DistinctIds ∧ ∀ gone, (tree.without gone).DistinctIds := by
  constructor
  · intro tree distinct
    have answered : TreeAnswer.ofTree tree plan = .ok _ := map_eq_ok_iff.mpr ⟨count, counted, rfl⟩
    exact ⟨_, answered, tells distinct answered⟩
  · intro recipe limit tree grows
    have distinct := Recipe.distinctIds_of_grow grows
    refine ⟨distinct, fun gone => ?_⟩
    rw [Branch.without_eq distinct]
    exact distinct.pruned gone

theorem TreeAnswer.ofTree_lossless_fork :
    let plan : Plan := ⟨.null, .ofTexts "F" ⟨[("F", "F[F]F")]⟩, 1, .real 22.5, .real 1.0⟩
    let tree : Branch Float := Branch.fork.map Float.ofNat
    plan.symbolCount = .ok (.int 5) ∧ tree.DistinctIds ∧
      ∃ answer, TreeAnswer.ofTree tree plan = .ok answer ∧ answer.Tells tree := by
  intro plan tree
  have counted : plan.symbolCount = .ok (.int 5) := rfl
  have distinct : tree.DistinctIds := by
    have forkDistinct : Branch.fork.DistinctIds := by decide
    exact forkDistinct.map Float.ofNat
  exact ⟨counted, distinct, (TreeAnswer.ofTree_lossless counted).1 tree distinct⟩

end Topiary.Service
