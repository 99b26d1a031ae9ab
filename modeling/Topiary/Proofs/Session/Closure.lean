import Topiary.Proofs.Branch.Closed
import Topiary.Proofs.Session.Exactness
import Topiary.Proofs.Session.Faithful

set_option autoImplicit false

/-!
# Whether the record is closed

A pruning records a whole branch of the tree of its time. The record outlives a change of
iterations, and then a segment that it names may carry more than it names. As long as the
record was made under the present iterations, it is closed, and the pruned tree can be
told from it without looking at the tree.
-/

namespace Topiary

theorem Branch.closed_takenFrom {α : Type} {tree : Branch α} (distinct : tree.DistinctIds)
    (id : String) : tree.Closed (tree.takenFrom id) := by
  rw [takenFrom]
  by_cases root : id = rootId
  · rw [if_pos root]
    exact .empty tree
  · rw [if_neg root]
    exact closed_idsFrom distinct id

theorem Branch.rootId_not_mem_takenFrom {α : Type} {tree : Branch α}
    (distinct : tree.DistinctIds) (top : tree.id = rootId) (id : String) :
    rootId ∉ tree.takenFrom id := by
  rw [takenFrom]
  by_cases root : id = rootId
  · rw [if_pos root]
    exact Std.ExtTreeSet.not_mem_empty
  · rw [if_neg root, ← top]
    exact top_not_mem_idsFrom distinct (top ▸ root)

namespace Session

variable {start session next : Session} {operation : Operation} {iterations : Value}

/-- Whatever the operations add to the record, they add it under the given iterations. -/
def RecordsUnder (iterations : Value) (session : Session) : List Operation → Prop
  | [] => True
  | operation :: rest =>
    ((session.after operation).pruned = session.pruned ∨
        (session.after operation).pruned = .empty ∨ session.iterations = iterations) ∧
      (session.after operation).RecordsUnder iterations rest

/-- The record is closed in what the grammar of the session grows under the given iterations,
and does not name the root. -/
structure ClosedUnder (session : Session) (iterations : Value) : Prop where
  closed : ∀ outline, { session.recipe with iterations := iterations }.outline = .ok outline →
    outline.Closed session.pruned.ids
  rootStays : rootId ∉ session.pruned.ids

namespace ClosedUnder

theorem of_empty (empty : session.pruned = .empty) : session.ClosedUnder iterations where
  closed outline _ := by
    rw [empty]
    exact .empty outline
  rootStays := by
    rw [empty]
    exact Std.ExtTreeSet.not_mem_empty

theorem congr (closedUnder : session.ClosedUnder iterations)
    (sameSpecies : next.species = session.species) (sameRecord : next.pruned = session.pruned) :
    next.ClosedUnder iterations where
  closed outline outlined := by
    rw [sameRecord]
    refine closedUnder.closed outline (Eq.trans (Recipe.outline_congr ?_) outlined)
    rw [Recipe.symbols, Recipe.symbols, recipe, recipe, sameSpecies]
  rootStays := by
    rw [sameRecord]
    exact closedUnder.rootStays

theorem including {grown : GrownTree} {between : Session}
    (closedUnder : session.ClosedUnder iterations) (faithful : session.Faithful)
    (present : session.iterations = iterations)
    (whole : session.wholeTree = .ok (grown, between)) {id : String}
    (sameSpecies : next.species = session.species)
    (record : next.pruned = session.pruned.including (grown.tree.takenFrom id)) :
    next.ClosedUnder iterations := by
  have distinct := faithful.coherent.distinctIds_of_wholeTree whole
  have outlined := faithful.outline_of_wholeTree whole
  have top := Recipe.id_of_grow (faithful.coherent.grows_of_wholeTree whole)
  have ids : next.pruned.ids = session.pruned.ids ∪ grown.tree.takenFrom id := by
    rw [record]
    rfl
  constructor
  · intro outline nextOutlined
    have sameSymbols : ({ next.recipe with iterations := iterations } : Recipe).symbols =
        session.recipe.symbols := by
      rw [Recipe.symbols, Recipe.symbols, recipe, recipe, sameSpecies, present]
    rw [Recipe.outline_congr sameSymbols, outlined, Except.ok.injEq] at nextOutlined
    have before : outline.Closed session.pruned.ids := by
      apply closedUnder.closed
      rw [← nextOutlined, ← outlined, ← present]
      rfl
    rw [← nextOutlined, Branch.closed_outline] at before ⊢
    rw [ids]
    exact before.union (Branch.closed_takenFrom distinct id)
  · rw [ids, Std.ExtTreeSet.mem_union_iff, not_or]
    exact ⟨closedUnder.rootStays, Branch.rootId_not_mem_takenFrom distinct top id⟩

theorem after (closedUnder : session.ClosedUnder iterations) (faithful : session.Faithful)
    (records : (session.after operation).pruned = session.pruned ∨
      (session.after operation).pruned = .empty ∨ session.iterations = iterations) :
    (session.after operation).ClosedUnder iterations := by
  rcases effect_after session operation with unchanged | effect
  · rwa [unchanged]
  generalize session.after operation = next at records effect ⊢
  rcases effect.species_cases with ⟨species, rfl, rfl⟩ | ⟨sameSpecies, -, record⟩
  · exact .of_empty rfl
  · rcases records with same | emptied | present
    · exact closedUnder.congr sameSpecies same
    · exact .of_empty emptied
    · rcases record with same | emptied | ⟨id, grown, between, whole, recorded⟩
      · exact closedUnder.congr sameSpecies same
      · exact .of_empty emptied
      · exact closedUnder.including faithful present whole sameSpecies recorded

theorem afterAll {operations : List Operation} (closedUnder : session.ClosedUnder iterations)
    (faithful : session.Faithful) (texts : session.KeepsToTexts operations)
    (records : session.RecordsUnder iterations operations) :
    (session.afterAll operations).ClosedUnder iterations := by
  induction operations generalizing session with
  | nil => exact closedUnder
  | cons operation rest ih =>
      obtain ⟨first, others⟩ := records
      exact ih (closedUnder.after faithful first) (faithful.after texts) texts.of_cons others

end ClosedUnder

/-! ## Pruned trees under a closed record -/

/-- Where the record was made under the present iterations since it was last empty, it names with
every segment of the full tree all that grows from it. The ids of the pruned tree are then those
that the record does not name, and as many segments are missing as it names. -/
theorem closed_afterAll {grown : GrownTree} {between : Session} (fresh : start.grown = none)
    (earlier later : List Operation) (texts : start.KeepsToTexts (earlier ++ later))
    (blank : (start.afterAll earlier).pruned = .empty)
    (recorded : (start.afterAll earlier).RecordsUnder
      (start.afterAll (earlier ++ later)).iterations later)
    (whole : (start.afterAll (earlier ++ later)).wholeTree = .ok (grown, between)) :
    let session := start.afterAll (earlier ++ later)
    let tree := grown.tree
    let gone := session.pruned.ids
    (∀ branch ∈ tree.traverse, branch.id ∈ gone → ∀ below ∈ branch.traverse, below.id ∈ gone) ∧
      rootId ∉ gone ∧
      session.trimmedTree = .ok (tree.without gone, between) ∧
      (tree.without gone).traverse.map Branch.id =
        (tree.traverse.map Branch.id).filter (fun id => id ∉ gone) ∧
      (tree.without gone).traverse.length + (gone ∩ tree.idSet).size = tree.traverse.length := by
  intro session tree gone
  have faithful : session.Faithful := (Faithful.of_fresh fresh).afterAll texts
  have distinct : tree.DistinctIds := faithful.coherent.distinctIds_of_wholeTree whole
  have closedUnder : session.ClosedUnder session.iterations := by
    have early : start.KeepsToTexts earlier := fun species member =>
      texts species (List.mem_append_left _ member)
    have blankClosed := (ClosedUnder.of_empty blank).afterAll
      ((Faithful.of_fresh fresh).afterAll early) texts.of_append recorded
    rwa [← afterAll_append] at blankClosed
  have closed : tree.Closed gone := by
    rw [← Branch.closed_outline]
    exact closedUnder.closed _ (faithful.outline_of_wholeTree whole)
  have topStays : tree.id ∉ gone := by
    rw [Recipe.id_of_grow (faithful.coherent.grows_of_wholeTree whole)]
    exact closedUnder.rootStays
  refine ⟨?_, closedUnder.rootStays, trimmedTree_of_wholeTree whole, ?_, ?_⟩
  · intro branch member named below belowMember
    rw [Branch.traverse_eq_preorder] at member belowMember
    exact closed.mem_of_mem_preorder distinct member named belowMember
  · rw [Branch.without_eq distinct, Branch.traverse_eq_preorder, Branch.traverse_eq_preorder]
    exact closed.ids_pruned distinct topStays
  · rw [Branch.without_eq distinct, Branch.traverse_eq_preorder, Branch.traverse_eq_preorder]
    exact closed.length_pruned distinct topStays

private theorem hedge_after_prune : ∃ grown growths,
    hedge.after (.prune "root-0-0") = { hedge with
      pruned := ⟨IdSet.ofIds ["root-0-0"], []⟩
      grown := grown
      growths := growths } := by
  obtain ⟨grown, between, whole⟩ : ∃ grown between, hedge.wholeTree = .ok (grown, between) :=
    exists_wholeTree_hedge rfl (.inl rfl) rfl
  have taken : grown.tree.takenFrom "root-0-0" = IdSet.ofIds ["root-0-0"] := by
    rw [Branch.takenFrom, if_neg (by decide),
      (Faithful.of_fresh rfl).idsFrom_of_wholeTree whole rfl, Branch.idsFrom_eq]
    rfl
  obtain ⟨next, pruned, changed, -⟩ := prune_of_wholeTree whole "root-0-0"
  have performed : hedge.perform (.prune "root-0-0") = .ok (_, next) :=
    map_eq_ok_iff.mpr ⟨_, pruned, rfl⟩
  have record : hedge.pruned.including (grown.tree.takenFrom "root-0-0") =
      ⟨IdSet.ofIds ["root-0-0"], []⟩ := by
    rw [taken]
    rfl
  rw [record] at changed
  exact ⟨next.grown, next.growths, (after_of_ok performed).trans changed⟩

/-- A segment is pruned, and then the angle is changed. -/
theorem closed_afterAll_redrawn : ∃ session grown between,
    hedge.afterAll ([] ++ [.prune "root-0-0", .withAngle (.int 30)]) = session ∧
      hedge.grown = none ∧
      hedge.KeepsToTexts ([] ++ [.prune "root-0-0", .withAngle (.int 30)]) ∧
      (hedge.afterAll []).pruned = .empty ∧
      (hedge.afterAll []).RecordsUnder session.iterations
        [.prune "root-0-0", .withAngle (.int 30)] ∧
      session.wholeTree = .ok (grown, between) ∧
      (grown.tree.without session.pruned.ids).traverse.length +
        (session.pruned.ids ∩ grown.tree.idSet).size = grown.tree.traverse.length := by
  obtain ⟨kept, growths, pruned⟩ := hedge_after_prune
  obtain ⟨session, run⟩ : ∃ session,
      hedge.afterAll ([] ++ [.prune "root-0-0", .withAngle (.int 30)]) = session := ⟨_, rfl⟩
  have turned : session = { hedge with
      angle := .real 30.0
      pruned := ⟨IdSet.ofIds ["root-0-0"], []⟩
      grown := kept
      growths := growths } := by
    rw [← run, List.nil_append, afterAll_cons, pruned]
    rfl
  have present : session.iterations = hedge.iterations := by simp only [turned]
  have fresh : hedge.grown = none := rfl
  have blank : (hedge.afterAll []).pruned = .empty := rfl
  have texts : hedge.KeepsToTexts ([] ++ [.prune "root-0-0", .withAngle (.int 30)]) :=
    fun species member => by simp at member
  have recorded : (hedge.afterAll []).RecordsUnder session.iterations
      [.prune "root-0-0", .withAngle (.int 30)] := by
    refine ⟨.inr (.inr present.symm), .inl ?_, trivial⟩
    rw [afterAll_nil, pruned]
    rfl
  obtain ⟨grown, between, whole⟩ : ∃ grown between, session.wholeTree = .ok (grown, between) := by
    rw [turned]
    exact exists_wholeTree_hedge rfl (.inl rfl) rfl
  refine ⟨session, grown, between, run, fresh, texts, blank, recorded, whole, ?_⟩
  rw [← run] at recorded whole ⊢
  exact (closed_afterAll fresh [] _ texts blank recorded whole).2.2.2.2

/-- A branch of one segment is pruned, and after one more generation this segment carries others. -/
theorem afterAll_outgrown : ∃ session grown between,
    hedge.afterAll [.prune "root-0-0", .withIterations (.int 2)] = session ∧
      hedge.grown = none ∧ hedge.pruned = .empty ∧
      session.wholeTree = .ok (grown, between) ∧
      ∃ branch ∈ grown.tree.traverse, branch.id ∈ session.pruned.ids ∧
        ∃ below ∈ branch.traverse, below.id ∉ session.pruned.ids := by
  obtain ⟨kept, growths, pruned⟩ := hedge_after_prune
  obtain ⟨session, run⟩ : ∃ session,
      hedge.afterAll [.prune "root-0-0", .withIterations (.int 2)] = session := ⟨_, rfl⟩
  have outgrown : session = { hedge with
      iterations := .int 2
      pruned := ⟨IdSet.ofIds ["root-0-0"], []⟩
      grown := kept
      growths := growths } := by
    rw [← run, afterAll_cons, pruned]
    rfl
  have fresh : hedge.grown = none := rfl
  have faithful : session.Faithful := by
    rw [← run]
    exact (Faithful.of_fresh fresh).afterAll fun species member => by simp at member
  obtain ⟨grown, between, whole⟩ : ∃ grown between, session.wholeTree = .ok (grown, between) := by
    rw [outgrown]
    exact exists_wholeTree_hedge rfl (.inr rfl) rfl
  have distinct := faithful.coherent.distinctIds_of_wholeTree whole
  have reached : "root-0-0-0" ∈ grown.tree.idsFrom "root-0-0" := by
    rw [faithful.idsFrom_of_wholeTree whole (by rw [outgrown]; rfl), Branch.idsFrom_eq]
    decide
  obtain ⟨branch, member, named, belowMember⟩ := (Branch.mem_idsFrom_iff distinct).mp reached
  obtain ⟨below, belowTree, belowNamed⟩ := Branch.mem_idSet_iff.mp belowMember
  have record : session.pruned.ids = IdSet.ofIds ["root-0-0"] := by simp only [outgrown]
  refine ⟨session, grown, between, run, fresh, rfl, whole, branch, ?_, ?_, below, ?_, ?_⟩
  · rwa [Branch.traverse_eq_preorder]
  · rw [named, record]
    decide
  · rwa [Branch.traverse_eq_preorder]
  · rw [belowNamed, record]
    decide

end Session

end Topiary
