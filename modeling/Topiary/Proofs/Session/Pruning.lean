import Topiary.Proofs.Session.Keeping

set_option autoImplicit false

/-!
# Pruning one tree

While only branches are pruned, a session shows the same full tree throughout, whether it
keeps that tree or grows it again, and its record is the union of what was taken away.
-/

namespace Topiary

theorem IdSet.union_empty (ids : IdSet) : ids ∪ ∅ = ids := by
  apply Std.ExtTreeSet.ext_mem
  intro id
  simp [Std.ExtTreeSet.mem_union_iff]

def Branch.takenFrom {α : Type} (tree : Branch α) (id : String) : IdSet :=
  if id = rootId then ∅ else tree.idsFrom id

namespace Session

/-- A session with a recipe, the tree that the recipe grows and a record of texts alone. -/
structure Shows (session : Session) (recipe : Recipe) (tree : Branch Float) (gone : IdSet) :
    Prop where
  recipe : session.recipe = recipe
  kept : ∀ kept, session.grown = some kept → kept.tree = tree
  record : session.pruned = ⟨gone, []⟩

namespace Shows

variable {session : Session} {recipe : Recipe} {key : Value} {tree : Branch Float} {gone : IdSet}
  (keyed : recipe.key = .ok key) (grows : recipe.grow none = .ok tree)
  (shows : session.Shows recipe tree gone)

include keyed grows shows

theorem wholeTree :
    ∃ grown next, session.wholeTree = .ok (grown, next) ∧ grown.tree = tree ∧
      next.Shows recipe tree gone := by
  obtain ⟨fault, keyless, -⟩ | ⟨kept, held, -, hit⟩ | ⟨-, miss⟩ := session.wholeTree_cases
  · rw [shows.recipe, keyed] at keyless
    cases keyless
  · exact ⟨kept, session, hit, shows.kept kept held, shows⟩
  · rw [regrow, shows.recipe, grows] at miss
    refine ⟨_, _, miss, rfl, shows.recipe, ?_, shows.record⟩
    rintro _ ⟨⟩
    rfl

theorem prune (id : String) :
    ∃ next, session.prune id = .ok (tree.takenFrom id, next) ∧
      next.Shows recipe tree (gone ∪ tree.takenFrom id) := by
  rw [Session.prune, Branch.takenFrom]
  by_cases root : id = rootId
  · rw [if_pos root, if_pos root, IdSet.union_empty]
    exact ⟨session, rfl, shows⟩
  · obtain ⟨grown, next, whole, same, showsNext⟩ := shows.wholeTree keyed grows
    rw [if_neg root, if_neg root, whole, ← same]
    refine ⟨_, rfl, showsNext.recipe, ?_, ?_⟩
    · intro kept held
      exact (showsNext.kept kept held).trans same.symm
    · exact congrArg (PruneRecord.including · (grown.tree.idsFrom id)) showsNext.record

theorem trimmedTree : ∃ next, session.trimmedTree = .ok (tree.without gone, next) := by
  obtain ⟨grown, next, whole, same, showsNext⟩ := shows.wholeTree keyed grows
  refine ⟨next, ?_⟩
  rw [Session.trimmedTree, whole]
  simp only [Except.map, showsNext.record, same]

theorem comparison :
    ∃ next, session.comparison = .ok (Comparison.ofTrees tree (tree.without gone), next) := by
  obtain ⟨grown, between, whole, same, showsBetween⟩ := shows.wholeTree keyed grows
  obtain ⟨next, trimmed⟩ := showsBetween.trimmedTree keyed grows
  refine ⟨next, ?_⟩
  rw [Session.comparison, whole]
  simp only [trimmed, Except.map, same]

theorem afterAll (clicked : List String) :
    (session.afterAll (clicked.map .prune)).Shows recipe tree
      (clicked.foldl (fun gone id => gone ∪ tree.takenFrom id) gone) := by
  induction clicked generalizing session gone with
  | nil => exact shows
  | cons id rest ih =>
      obtain ⟨next, pruned, showsNext⟩ := shows.prune keyed grows id
      have performed : session.perform (.prune id) = .ok (.ids (tree.takenFrom id), next) :=
        map_eq_ok_iff.mpr ⟨_, pruned, rfl⟩
      rw [List.map_cons, afterAll_cons, after_of_ok performed, List.foldl_cons]
      exact ih showsNext

end Shows

/-! ## A recipe that grows nothing -/

variable {session : Session} {key : Value} {fault : Fault}
  (keyed : session.recipe.key = .ok key) (unkept : session.grown = none)
  (fails : session.recipe.grow none = .error fault)

include keyed unkept fails

theorem wholeTree_of_fails : session.wholeTree = .error fault := by
  rw [wholeTree, keyed, unkept, regrow, fails]

theorem after_prune_of_fails (id : String) : session.after (.prune id) = session := by
  by_cases root : id = rootId
  · have performed : session.perform (.prune id) = .ok (.ids ∅, session) := by
      rw [perform, prune, if_pos root]
      rfl
    exact after_of_ok performed
  · have performed : session.perform (.prune id) = .error fault := by
      rw [perform, prune, if_neg root, wholeTree_of_fails keyed unkept fails]
      rfl
    exact after_of_error performed

theorem afterAll_prune_of_fails (clicked : List String) :
    session.afterAll (clicked.map .prune) = session := by
  induction clicked with
  | nil => rfl
  | cons id rest ih =>
      rw [List.map_cons, afterAll_cons, after_prune_of_fails keyed unkept fails, ih]

end Session

end Topiary
