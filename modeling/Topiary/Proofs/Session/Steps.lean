import Topiary.Proofs.Growth.Outline
import Topiary.Proofs.Session.Act
import Topiary.Proofs.Session.Ranges

set_option autoImplicit false

/-!
# What an operation does

An operation that succeeds changes one parameter, or forgets the record, or adds to the
record what a full tree has at and under one branch. Looking at a tree changes nothing but
which tree is kept.
-/

namespace Topiary.Session

/-! ## Looking at the full tree -/

variable {session next between : Session} {grown : GrownTree}

theorem trimmedTree_of_wholeTree (whole : session.wholeTree = .ok (grown, next)) :
    session.trimmedTree = .ok (grown.tree.without session.pruned.ids, next) := by
  have record : next.pruned = session.pruned := by rw [mirrors_wholeTree whole]
  rw [trimmedTree, whole, ← record]
  rfl

theorem exists_wholeTree_of_trimmedTree {tree : Branch Float}
    (trimmed : session.trimmedTree = .ok (tree, next)) :
    ∃ grown, session.wholeTree = .ok (grown, next) ∧
      tree = grown.tree.without session.pruned.ids := by
  obtain ⟨⟨grown, between⟩, whole, same⟩ := map_eq_ok_iff.mp trimmed
  have direct := trimmedTree_of_wholeTree whole
  cases same
  exact ⟨grown, whole, congrArg Prod.fst (Except.ok.inj (trimmed.symm.trans direct))⟩

theorem mirrors_trimmedTree {tree : Branch Float}
    (trimmed : session.trimmedTree = .ok (tree, next)) : session.Mirrors next := by
  obtain ⟨grown, whole, -⟩ := exists_wholeTree_of_trimmedTree trimmed
  exact mirrors_wholeTree whole

theorem mirrors_comparison {comparison : Comparison Float}
    (compared : session.comparison = .ok (comparison, next)) : session.Mirrors next := by
  rw [Session.comparison] at compared
  cases whole : session.wholeTree with
  | error fault => simp [whole] at compared
  | ok result =>
      obtain ⟨grown, between⟩ := result
      simp only [whole] at compared
      obtain ⟨⟨tree, last⟩, trimmed, same⟩ := map_eq_ok_iff.mp compared
      cases same
      exact (mirrors_wholeTree whole).trans (mirrors_trimmedTree trimmed)

theorem Coherent.distinctIds_of_wholeTree (coherent : session.Coherent)
    (whole : session.wholeTree = .ok (grown, next)) : grown.tree.DistinctIds :=
  Recipe.distinctIds_of_grow (coherent.grows_of_wholeTree whole)

/-! ## Pruning a branch -/

theorem prune_of_wholeTree (whole : session.wholeTree = .ok (grown, between)) (id : String) :
    ∃ next, session.prune id = .ok (grown.tree.takenFrom id, next) ∧
      next = { session with
        pruned := session.pruned.including (grown.tree.takenFrom id)
        grown := next.grown
        growths := next.growths } ∧
      (next.grown = some grown ∨ id = rootId ∧ next = session) := by
  rw [prune, Branch.takenFrom]
  by_cases root : id = rootId
  · rw [if_pos root, if_pos root]
    refine ⟨session, rfl, ?_, .inr ⟨root, rfl⟩⟩
    rw [PruneRecord.including, IdSet.union_empty]
  · rw [if_neg root, if_neg root, whole]
    have held := grown_of_wholeTree whole
    refine ⟨_, rfl, ?_, .inl held⟩
    rw [mirrors_wholeTree whole]

/-! ## All operations -/

/-- What a session becomes by an operation that succeeds. -/
def Effect (session next : Session) : Operation → Prop
  | .choose species => next = session.choose species
  | .withIterations value => ∃ count, value = .int count ∧
      checkBounds "iterations" value Settings.standard.iterationsRange.toList = .ok value ∧
        next = { session with iterations := .int count }
  | .withAngle value => ∃ angle,
      realInRange "angle" value Settings.standard.angleRange = .ok angle ∧
        next = { session with angle := angle }
  | .withStepSize value => ∃ stepSize,
      realInRange "step_size" value Settings.standard.stepRange = .ok stepSize ∧
        next = { session with stepSize := stepSize }
  | .withThickness value => ∃ thickness,
      realInRange "thickness" value Settings.standard.thicknessRange = .ok thickness ∧
        next = { session with thickness := thickness }
  | .wholeTree | .trimmedTree | .comparison => session.Mirrors next
  | .prune id => (id = rootId ∧ next = session) ∨
      ∃ grown between, session.wholeTree = .ok (grown, between) ∧
        next = { between with pruned := session.pruned.including (grown.tree.takenFrom id) }
  | .forgetPruned => next = session.forgetPruned
  | .restart => next = session.restart

/-- A setter that succeeds has accepted a value and changes what it sets to this value. -/
private theorem exists_accepted {β : Type} {checked : Except Fault β} {change : β → Session}
    {outcome : Outcome} (performed : (checked.map change).map silently = .ok (outcome, next)) :
    ∃ value, checked = .ok value ∧ next = change value := by
  obtain ⟨changed, accepted, same⟩ := map_eq_ok_iff.mp performed
  obtain ⟨value, passed, rfl⟩ := map_eq_ok_iff.mp accepted
  cases same
  exact ⟨value, passed, rfl⟩

theorem effect_of_perform {operation : Operation} {outcome : Outcome}
    (performed : session.perform operation = .ok (outcome, next)) :
    session.Effect next operation := by
  cases operation with
  | choose species => cases performed; rfl
  | forgetPruned => cases performed; rfl
  | restart => cases performed; rfl
  | withIterations value =>
      cases value with
      | int count =>
          obtain ⟨iterations, checked, rfl⟩ := exists_accepted performed
          obtain ⟨rfl, -⟩ := checkBounds_eq_ok checked
          exact ⟨count, rfl, checked, rfl⟩
      | null | bool _ | real _ | text _ | list _ | dict _ => cases performed
  | withAngle value => exact exists_accepted performed
  | withStepSize value => exact exists_accepted performed
  | withThickness value => exact exists_accepted performed
  | wholeTree =>
      obtain ⟨⟨grown, last⟩, shown, same⟩ := map_eq_ok_iff.mp performed
      cases same
      exact mirrors_wholeTree shown
  | trimmedTree =>
      obtain ⟨⟨tree, last⟩, shown, same⟩ := map_eq_ok_iff.mp performed
      cases same
      exact mirrors_trimmedTree shown
  | comparison =>
      obtain ⟨⟨comparison, last⟩, shown, same⟩ := map_eq_ok_iff.mp performed
      cases same
      exact mirrors_comparison shown
  | prune id =>
      obtain ⟨⟨removed, last⟩, pruned, same⟩ := map_eq_ok_iff.mp performed
      cases same
      rw [prune] at pruned
      split at pruned
      · next root =>
        cases pruned
        exact .inl ⟨root, rfl⟩
      · next below =>
        obtain ⟨⟨grown, between⟩, whole, same⟩ := map_eq_ok_iff.mp pruned
        cases same
        refine .inr ⟨grown, between, whole, ?_⟩
        rw [Branch.takenFrom, if_neg below, mirrors_wholeTree whole]

theorem effect_after (session : Session) (operation : Operation) :
    session.after operation = session ∨ session.Effect (session.after operation) operation := by
  cases performed : session.perform operation with
  | error fault => exact .inl (after_of_error performed)
  | ok result =>
      obtain ⟨outcome, next⟩ := result
      rw [after_of_ok performed]
      exact .inr (effect_of_perform performed)

/-- What a record becomes by an operation: it stays, is emptied, or grows by what the full tree has
at and under one branch. -/
def Records (session next : Session) : Prop :=
  next.pruned = session.pruned ∨ next.pruned = .empty ∨
    ∃ id grown between, session.wholeTree = .ok (grown, between) ∧
      next.pruned = session.pruned.including (grown.tree.takenFrom id)

/-- Unless another species is chosen, the species stays, iterations that change become a whole
number, and the record does what a record does. -/
theorem Effect.species_cases {operation : Operation} (effect : session.Effect next operation) :
    (∃ species, operation = .choose species ∧ next = session.choose species) ∨
      next.species = session.species ∧
        (next.iterations = session.iterations ∨ ∃ count, next.iterations = .int count) ∧
        session.Records next := by
  cases operation with
  | choose species => exact .inl ⟨species, rfl, effect⟩
  | withIterations value =>
      obtain ⟨count, -, -, rfl⟩ := effect
      exact .inr ⟨rfl, .inr ⟨count, rfl⟩, .inl rfl⟩
  | withAngle value =>
      obtain ⟨angle, -, rfl⟩ := effect
      exact .inr ⟨rfl, .inl rfl, .inl rfl⟩
  | withStepSize value =>
      obtain ⟨stepSize, -, rfl⟩ := effect
      exact .inr ⟨rfl, .inl rfl, .inl rfl⟩
  | withThickness value =>
      obtain ⟨thickness, -, rfl⟩ := effect
      exact .inr ⟨rfl, .inl rfl, .inl rfl⟩
  | wholeTree | trimmedTree | comparison =>
      rw [effect]
      exact .inr ⟨rfl, .inl rfl, .inl rfl⟩
  | prune id =>
      obtain ⟨-, rfl⟩ | ⟨grown, between, whole, rfl⟩ := effect
      · exact .inr ⟨rfl, .inl rfl, .inl rfl⟩
      · rw [mirrors_wholeTree whole]
        exact .inr ⟨rfl, .inl rfl, .inr (.inr ⟨id, grown, between, whole, rfl⟩)⟩
  | forgetPruned =>
      cases effect
      exact .inr ⟨rfl, .inl rfl, .inr (.inl rfl)⟩
  | restart =>
      cases effect
      exact .inr ⟨rfl, .inr ⟨_, rfl⟩, .inr (.inl rfl)⟩

end Topiary.Session
