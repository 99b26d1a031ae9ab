import Topiary.Proofs.Session.Pruning
import Topiary.Session.Act

set_option autoImplicit false

/-!
# What the steps of an operation do

Steps that only look at trees change nothing but the kept tree, wherever they fail. On a
session whose record is a set, an operation ends step by step as it does as a whole: every
step that can fail comes before the first assignment, or does once more what has just
succeeded.
-/

namespace Topiary

/-- Whether an operation sets parameters or the record and asks for no tree. -/
def Operation.setsOnly : Operation → Bool
  | .choose _ | .withIterations _ | .withAngle _ | .withStepSize _ | .withThickness _
  | .forgetPruned | .restart => true
  | .wholeTree | .trimmedTree | .prune _ | .comparison => false

namespace Session

open MonadExcept (ofExcept)

/-! ## Going to the end or leaving everything -/

variable {α β : Type} {Record : Type} {session next : Session GivenRecord}
  {grown : GrownTree} {operation : Operation}

/-- An operation that succeeds or fails as a whole, as an end of steps: where it fails, the session
is the one that it began with. -/
def settle (session : Session Record) :
    Except Fault (α × Session Record) → EStateM.Result Fault (Session Record) α
  | .ok (outcome, next) => .ok outcome next
  | .error fault => .error fault session

theorem settle_eq_error {session : Session Record} {result : Except Fault (α × Session Record)}
    {fault : Fault} {last : Session Record} (failed : settle session result = .error fault last) :
    last = session := by
  cases result with
  | ok outcome => cases failed
  | error cause =>
      cases failed
      rfl

theorem settle_eq_ok {session next : Session Record} {result : Except Fault (α × Session Record)}
    {outcome : α} (succeeded : settle session result = .ok outcome next) :
    result = .ok (outcome, next) := by
  cases result with
  | ok pair =>
      cases succeeded
      rfl
  | error cause => cases succeeded

namespace Act

/-- A check lets the steps behind it begin where it began. -/
theorem run_ofExcept_bind (result : Except Fault α) (rest : α → Act β) :
    EStateM.run (ofExcept result >>= rest) session =
      match result with
      | .ok value => (rest value).run session
      | .error fault => .error fault session := by
  cases result <;> rfl

theorem run_map {act : Act α} {result : Except Fault (α × Session GivenRecord)} (f : α → β)
    (settled : act.run session = settle session result) :
    EStateM.run (f <$> act) session =
      settle session (result.map fun (outcome, next) => (f outcome, next)) := by
  rw [map_eq_pure_bind, EStateM.run_bind, settled]
  cases result <;> rfl

theorem left_map (act : Act α) (f : α → β) (session : Session GivenRecord) :
    left (EStateM.run (f <$> act) session) = left (act.run session) := by
  rw [map_eq_pure_bind, EStateM.run_bind]
  cases act.run session <;> rfl

theorem run_map_eq_error {act : Act α} {f : α → β} {fault : Fault} {last : Session GivenRecord} :
    EStateM.run (f <$> act) session = .error fault last ↔
      act.run session = .error fault last := by
  rw [map_eq_pure_bind, EStateM.run_bind]
  cases act.run session with
  | ok outcome next => simp
  | error cause between => simp

/-! ## Parameters -/

theorem run_withIterations (session : Session GivenRecord) (value : Value) :
    (withIterations value).run session =
      settle session ((session.withIterations value).map fun next => ((), next)) := by
  cases value with
  | int count =>
      rw [withIterations, run_ofExcept_bind, Session.withIterations]
      cases checkBounds "iterations" (.int count) Settings.standard.iterationsRange.toList <;> rfl
  | null | bool _ | real _ | text _ | list _ | dict _ => rfl

theorem run_withReal (name : String) (bounds : Bounds)
    (assign : Session GivenRecord → Value → Session GivenRecord) (value : Value)
    (session : Session GivenRecord) :
    (withReal name bounds assign value).run session =
      settle session (((realInRange name value bounds).map (assign session)).map
        fun next => ((), next)) := by
  rw [withReal, run_ofExcept_bind, realInRange]
  cases checkBounds name value bounds.toList with
  | error fault => rfl
  | ok checked =>
      simp only [run_ofExcept_bind]
      cases checked.asReal <;> rfl

/-! ## Trees -/

theorem run_wholeTree (session : Session GivenRecord) :
    wholeTree.run session = settle session session.wholeTree := by
  rw [wholeTree, EStateM.run_bind, EStateM.run_get, Session.wholeTree]
  simp only [run_ofExcept_bind]
  cases session.recipe.key with
  | error fault => rfl
  | ok key =>
      cases session.grown with
      | none =>
          rw [Option.filter_none, regrow]
          simp only [run_ofExcept_bind]
          cases session.recipe.grow none <;> rfl
      | some kept =>
          by_cases agree : kept.recipe.agrees session.recipe = true
          · simp only [agree, Option.filter_some, if_true]
            rfl
          · simp only [agree, Option.filter_some, regrow]
            cases session.recipe.grow none <;> rfl

theorem run_wholeTree_bind (rest : GrownTree → Act β) (session : Session GivenRecord) :
    EStateM.run (wholeTree >>= rest) session =
      match session.wholeTree with
      | .ok (grown, next) => (rest grown).run next
      | .error fault => .error fault session := by
  rw [EStateM.run_bind, run_wholeTree]
  cases session.wholeTree <;> rfl

/-! ## Looking at trees -/

structure Looks (session last : Session GivenRecord) : Prop where
  tends : Tends session last
  mirrors : session.Mirrors last

theorem Looks.refl (session : Session GivenRecord) : Looks session session :=
  ⟨.refl session, .refl session⟩

/-- Steps that only look at trees, as far as they go. -/
def Looking (act : Act α) : Prop :=
  ∀ session, Looks session (left (act.run session))

namespace Looking

theorem ofExcept (result : Except Fault α) : Looking (ofExcept result : Act α) := by
  intro session
  cases result <;> exact .refl session

theorem pure (value : α) : Looking (pure value : Act α) :=
  fun session => .refl session

theorem get : Looking (get : Act (Session GivenRecord)) :=
  fun session => .refl session

theorem bind {act : Act α} {rest : α → Act β} (first : Looking act)
    (second : ∀ value, Looking (rest value)) : Looking (act >>= rest) := by
  intro session
  have begun := first session
  rw [EStateM.run_bind]
  cases ran : act.run session with
  | error fault last =>
      rw [ran] at begun
      exact begun
  | ok value between =>
      rw [ran] at begun
      have ended := second value between
      exact ⟨begun.tends.trans begun.mirrors.recipe ended.tends,
        begun.mirrors.trans ended.mirrors⟩

theorem map {act : Act α} (looking : Looking act) (f : α → β) : Looking (f <$> act) := by
  intro session
  rw [left_map]
  exact looking session

end Looking

theorem looking_wholeTree : Looking wholeTree := by
  intro session
  rw [run_wholeTree]
  cases whole : session.wholeTree with
  | error fault => exact .refl session
  | ok shown => exact ⟨tends_wholeTree whole, mirrors_wholeTree whole⟩

theorem looking_trimmedTree : Looking trimmedTree :=
  looking_wholeTree.bind fun _ => Looking.get.bind fun _ => .ofExcept _

theorem looking_comparison : Looking comparison :=
  looking_wholeTree.bind fun _ => looking_trimmedTree.bind fun _ => .pure _

/-- Adding to a record fails without an effect, or changes nothing but the record. -/
theorem run_record_cases (removed : IdSet) (session : Session GivenRecord) :
    (∃ fault, (record removed).run session = .error fault session) ∨
      ∃ pruned, (record removed).run session = .ok () { session with pruned := pruned } := by
  by_cases nothing : removed.isEmpty
  · refine .inr ⟨session.pruned, ?_⟩
    rw [record, if_pos nothing]
    rfl
  · rw [record, if_neg nothing]
    cases included : session.pruned.including removed with
    | error fault =>
        refine .inl ⟨fault, ?_⟩
        rw [EStateM.run_bind, EStateM.run_get]
        simp only [run_ofExcept_bind, included]
    | ok pruned =>
        refine .inr ⟨pruned, ?_⟩
        rw [EStateM.run_bind, EStateM.run_get]
        simp only [run_ofExcept_bind, included]
        rfl

/-- A pruning only looks at the full tree until the record changes, with which it ends. -/
theorem left_prune_cases (id : String) (session : Session GivenRecord) :
    ∃ between, Looks session between ∧
      ((∃ fault, (prune id).run session = .error fault between) ∨
        ∃ removed pruned, (prune id).run session = .ok removed { between with pruned := pruned }) := by
  rw [prune]
  by_cases root : id = rootId
  · rw [if_pos root]
    exact ⟨session, .refl session, .inr ⟨∅, session.pruned, rfl⟩⟩
  · rw [if_neg root, run_wholeTree_bind]
    cases whole : session.wholeTree with
    | error fault => exact ⟨session, .refl session, .inl ⟨fault, rfl⟩⟩
    | ok shown =>
        obtain ⟨grown, between⟩ := shown
        refine ⟨between, ⟨tends_wholeTree whole, mirrors_wholeTree whole⟩, ?_⟩
        simp only [EStateM.run_bind]
        rcases run_record_cases (grown.tree.idsFrom id) between with
          ⟨fault, failed⟩ | ⟨pruned, recorded⟩
        · exact .inl ⟨fault, by rw [failed]⟩
        · exact .inr ⟨_, pruned, by rw [recorded]; rfl⟩

end Act

/-! ## What an operation does with the kept tree -/

theorem kept_afterEnact (sets : operation.setsOnly = true) (session : Session GivenRecord) :
    (session.afterEnact operation).grown = session.grown ∧
      (session.afterEnact operation).growths = session.growths := by
  cases operation with
  | choose species | forgetPruned | restart => exact ⟨rfl, rfl⟩
  | withIterations value =>
      rw [afterEnact, enact, Act.left_map, Act.run_withIterations]
      cases value with
      | int count =>
          rw [Session.withIterations]
          cases checkBounds "iterations" (.int count) Settings.standard.iterationsRange.toList <;>
            exact ⟨rfl, rfl⟩
      | null | bool _ | real _ | text _ | list _ | dict _ => exact ⟨rfl, rfl⟩
  | withAngle value =>
      rw [afterEnact, enact, Act.left_map, Act.withAngle, Act.run_withReal]
      cases realInRange "angle" value Settings.standard.angleRange <;> exact ⟨rfl, rfl⟩
  | withStepSize value =>
      rw [afterEnact, enact, Act.left_map, Act.withStepSize, Act.run_withReal]
      cases realInRange "step_size" value Settings.standard.stepRange <;> exact ⟨rfl, rfl⟩
  | withThickness value =>
      rw [afterEnact, enact, Act.left_map, Act.withThickness, Act.run_withReal]
      cases realInRange "thickness" value Settings.standard.thicknessRange <;> exact ⟨rfl, rfl⟩
  | wholeTree | trimmedTree | prune id | comparison => cases sets

theorem tends_afterEnact (session : Session GivenRecord) (operation : Operation) :
    Tends session (session.afterEnact operation) := by
  by_cases sets : operation.setsOnly = true
  · obtain ⟨grown, growths⟩ := kept_afterEnact sets session
    exact .leaves grown growths
  cases operation with
  | choose _ | withIterations _ | withAngle _ | withStepSize _ | withThickness _ | forgetPruned
  | restart => exact absurd rfl sets
  | wholeTree => exact (Act.looking_wholeTree.map _ session).tends
  | trimmedTree => exact (Act.looking_trimmedTree.map _ session).tends
  | comparison => exact (Act.looking_comparison.map _ session).tends
  | prune id =>
      rw [afterEnact, enact, Act.left_map]
      obtain ⟨between, looks, ⟨fault, ran⟩ | ⟨removed, pruned, ran⟩⟩ :=
        Act.left_prune_cases id session
      · rw [ran]
        exact looks.tends
      · rw [ran]
        exact looks.tends.trans looks.mirrors.recipe (.leaves rfl rfl)

/-! ## Records that are sets -/

theorem wholeTree_recording {Other : Type} (session : Session Record) (record : Other) :
    ({ session with pruned := record } : Session Other).wholeTree =
      session.wholeTree.map fun (grown, next) => (grown, { next with pruned := record }) := by
  have recipe : ({ session with pruned := record } : Session Other).recipe = session.recipe := rfl
  rw [wholeTree, wholeTree, regrow, regrow, recipe]
  cases session.recipe.key with
  | error fault => rfl
  | ok key =>
      cases held : session.grown with
      | none => cases session.recipe.grow none <;> rfl
      | some kept =>
          simp only
          split
          · rw [Except.map, held]
          · cases session.recipe.grow none <;> rfl

theorem wholeTree_given (session : Session) :
    session.given.wholeTree = session.wholeTree.map fun (grown, next) => (grown, next.given) := by
  rw [given, wholeTree_recording]
  cases whole : session.wholeTree with
  | error fault => rfl
  | ok shown =>
      have record : shown.2.pruned = session.pruned := by rw [mirrors_wholeTree whole]
      simp only [Except.map, given, record]

namespace Act

theorem run_trimmedTree_given (session : Session) :
    trimmedTree.run session.given =
      settle session.given (session.trimmedTree.map fun (tree, next) => (tree, next.given)) := by
  rw [trimmedTree, run_wholeTree_bind, wholeTree_given, Session.trimmedTree]
  cases session.wholeTree <;> rfl

theorem run_record_given (removed : IdSet) (session : Session) :
    (record removed).run session.given =
      .ok () { session with pruned := session.pruned.including removed }.given := by
  by_cases nothing : removed.isEmpty
  · have same : session.pruned.including removed = session.pruned := by
      rw [Std.ExtTreeSet.isEmpty_iff.mp nothing, PruneRecord.including, IdSet.union_empty]
    rw [record, if_pos nothing, same]
    rfl
  · rw [record, if_neg nothing]
    rfl

theorem run_prune_given (session : Session) (id : String) :
    (prune id).run session.given =
      settle session.given ((session.prune id).map fun (ids, next) => (ids, next.given)) := by
  rw [prune, Session.prune]
  by_cases root : id = rootId
  · rw [if_pos root, if_pos root]
    rfl
  · rw [if_neg root, if_neg root, run_wholeTree_bind, wholeTree_given]
    cases session.wholeTree with
    | error fault => rfl
    | ok shown =>
        simp only [Except.map, EStateM.run_bind, run_record_given]
        rfl

theorem run_comparison_given (session : Session) :
    comparison.run session.given =
      settle session.given
        (session.comparison.map fun (comparison, next) => (comparison, next.given)) := by
  rw [comparison, run_wholeTree_bind, wholeTree_given, Session.comparison]
  cases whole : session.wholeTree with
  | error fault => rfl
  | ok shown =>
      obtain ⟨grown, next⟩ := shown
      -- The pruned tree asks for the full tree once more, when the session may have changed.
      obtain ⟨again, last, wholeAgain⟩ := exists_wholeTree_again whole
      have trimmed : next.trimmedTree = .ok (again.tree.without last.pruned.ids, last) := by
        rw [Session.trimmedTree, wholeAgain]
        rfl
      simp only [Except.map, EStateM.run_bind, run_trimmedTree_given, trimmed]
      rfl

end Act

/-- On a session whose record is a set, every operation succeeds or fails as a whole. -/
theorem run_enact_given (session : Session) (operation : Operation) :
    (enact operation).run session.given =
      settle session.given
        ((session.perform operation).map fun (outcome, next) => (outcome, next.given)) := by
  cases operation with
  | choose species | forgetPruned | restart => rfl
  | withIterations value =>
      rw [enact, Act.run_map _ (Act.run_withIterations _ _), perform]
      cases value with
      | int count =>
          rw [Session.withIterations, Session.withIterations]
          cases checkBounds "iterations" (.int count) Settings.standard.iterationsRange.toList <;>
            rfl
      | null | bool _ | real _ | text _ | list _ | dict _ => rfl
  | withAngle value =>
      rw [enact, Act.withAngle, Act.run_map _ (Act.run_withReal _ _ _ _ _), perform,
        Session.withAngle]
      cases realInRange "angle" value Settings.standard.angleRange <;> rfl
  | withStepSize value =>
      rw [enact, Act.withStepSize, Act.run_map _ (Act.run_withReal _ _ _ _ _), perform,
        Session.withStepSize]
      cases realInRange "step_size" value Settings.standard.stepRange <;> rfl
  | withThickness value =>
      rw [enact, Act.withThickness, Act.run_map _ (Act.run_withReal _ _ _ _ _), perform,
        Session.withThickness]
      cases realInRange "thickness" value Settings.standard.thicknessRange <;> rfl
  | wholeTree =>
      rw [enact, Act.run_map _ (Act.run_wholeTree _), wholeTree_given, perform]
      cases session.wholeTree <;> rfl
  | trimmedTree =>
      rw [enact, Act.run_map _ (Act.run_trimmedTree_given _), perform]
      cases session.trimmedTree <;> rfl
  | prune id =>
      rw [enact, Act.run_map _ (Act.run_prune_given _ _), perform]
      cases session.prune id <;> rfl
  | comparison =>
      rw [enact, Act.run_map _ (Act.run_comparison_given _), perform]
      cases session.comparison <;> rfl

theorem afterEnact_given (session : Session) (operation : Operation) :
    session.given.afterEnact operation = (session.after operation).given := by
  rw [afterEnact, run_enact_given, after]
  cases session.perform operation <;> rfl

theorem tends_after (session : Session) (operation : Operation) :
    Tends session (session.after operation) := by
  have tends := tends_afterEnact session.given operation
  rw [afterEnact_given] at tends
  cases tends with
  | leaves grown growths => exact .leaves grown growths
  | regrows differs grows fresh grown growths => exact .regrows differs grows fresh grown growths

theorem Coherent.afterAll {session : Session} (coherent : session.Coherent)
    (operations : List Operation) : (session.afterAll operations).Coherent := by
  induction operations generalizing session with
  | nil => exact coherent
  | cons operation rest ih => exact ih (coherent.of_tends (tends_after session operation))

end Session

end Topiary
