import Topiary.Proofs.Branch.Closed
import Topiary.Proofs.Growth.Limit
import Topiary.Proofs.Session.Exactness
import Topiary.Proofs.Session.Faithful

set_option autoImplicit false

/-!
# Failures in the middle of an operation

An operation that fails leaves the session exactly as it was, as long as the record is a set:
every step that can fail comes before the first assignment, or does once more what has just
succeeded. On a record that is no set, pruning and looking at the pruned tree can fail after
the full tree was shown, which may have changed the kept tree, but nothing else.
-/

namespace Topiary

/-- Whether an operation needs the record that is there. -/
def Operation.usesRecord : Operation → Bool
  | .trimmedTree | .prune _ | .comparison => true
  | .choose _ | .withIterations _ | .withAngle _ | .withStepSize _ | .withThickness _
  | .wholeTree | .forgetPruned | .restart => false

namespace Recipe

/-- Tenfold growth exceeds the limit in seven generations. -/
theorem exists_error_tenfold (angle step : Value) :
    ∃ fault, (Recipe.mk (.ofTexts "F" tenfold) (.int 7) angle step).grow none = .error fault := by
  have valid : generations (.int 7) = .ok 7 := rfl
  rcases grow_ofTexts_cases valid "F" tenfold angle step none with
    ⟨within, -⟩ | ⟨-, -, refused⟩ | ⟨-, -, refused⟩
  · rw [length_symbolsAfter_tenfold] at within
    exact absurd within (by decide)
  · exact ⟨_, refused⟩
  · exact ⟨_, refused⟩

end Recipe

namespace Session

variable {session next last : Session GivenRecord} {operation : Operation}
  {operations rest : List Operation} {fault : Fault}

/-! ## Where an operation stops -/

/-- The record is a set, or the operation does not get to it. -/
def Suits (session : Session GivenRecord) (operation : Operation) : Prop :=
  session.pruned.IsSet ∨ operation.usesRecord = false ∨
    ∃ fault, Act.wholeTree.run session = .error fault session

theorem exists_given (isSet : session.pruned.IsSet) : ∃ strict : Session, session = strict.given := by
  obtain ⟨record, same⟩ := isSet
  refine ⟨{ session with pruned := record }, ?_⟩
  rw [given, ← same]

theorem exists_settle (apart : operation.usesRecord = false) (session : Session GivenRecord) :
    ∃ result, (enact operation).run session = settle session result := by
  cases operation with
  | choose species | forgetPruned | restart => exact ⟨.ok (_, _), rfl⟩
  | withIterations value => exact ⟨_, Act.run_map _ (Act.run_withIterations session value)⟩
  | withAngle value | withStepSize value | withThickness value =>
      exact ⟨_, Act.run_map _ (Act.run_withReal _ _ _ value session)⟩
  | wholeTree => exact ⟨_, Act.run_map _ (Act.run_wholeTree session)⟩
  | trimmedTree | prune id | comparison => cases apart

theorem eq_of_failed_apart (apart : operation.usesRecord = false)
    (failed : (enact operation).run session = .error fault last) : last = session := by
  obtain ⟨result, settled⟩ := exists_settle apart session
  exact settle_eq_error (settled.symm.trans failed)

/-- Steps that begin with the full tree and fail have not begun, or change at most the kept tree. -/
theorem Act.stopped_cases {α : Type} {rest : GrownTree → Act α}
    (looking : ∀ grown between, (rest grown).run between = .error fault last → between.Mirrors last)
    (failed : EStateM.run (wholeTree >>= rest) session = .error fault last) :
    last = session ∨
      (∃ grown between, Act.wholeTree.run session = .ok grown between) ∧ session.Mirrors last := by
  rw [run_wholeTree_bind] at failed
  cases whole : session.wholeTree with
  | error cause =>
      rw [whole] at failed
      cases failed
      exact .inl rfl
  | ok shown =>
      obtain ⟨grown, between⟩ := shown
      rw [whole] at failed
      refine .inr ⟨⟨grown, between, ?_⟩, (mirrors_wholeTree whole).trans (looking _ _ failed)⟩
      rw [run_wholeTree, whole]
      rfl

theorem Act.Looking.mirrors_of_failed {α : Type} {act : Act α} (looking : Looking act)
    (failed : act.run session = .error fault last) : session.Mirrors last := by
  have looks := looking session
  rw [failed] at looks
  exact looks.mirrors

theorem failed_cases (failed : (enact operation).run session = .error fault last) :
    last = session ∨
      (∃ grown between, Act.wholeTree.run session = .ok grown between) ∧ session.Mirrors last := by
  cases operation with
  | choose _ | withIterations _ | withAngle _ | withStepSize _ | withThickness _ | wholeTree
  | forgetPruned | restart => exact .inl (eq_of_failed_apart rfl failed)
  | trimmedTree =>
      refine Act.stopped_cases (fun grown between stopped => ?_) (Act.run_map_eq_error.mp failed)
      exact (Act.Looking.get.bind fun _ => .ofExcept _).mirrors_of_failed stopped
  | comparison =>
      refine Act.stopped_cases (fun grown between stopped => ?_) (Act.run_map_eq_error.mp failed)
      exact (Act.looking_trimmedTree.bind fun _ => .pure _).mirrors_of_failed stopped
  | prune id =>
      have stopped := Act.run_map_eq_error.mp failed
      rw [Act.prune] at stopped
      by_cases root : id = rootId
      · rw [if_pos root] at stopped
        cases stopped
      · rw [if_neg root] at stopped
        refine Act.stopped_cases (fun grown between stopped => ?_) stopped
        rw [EStateM.run_bind] at stopped
        rcases Act.run_record_cases (grown.tree.idsFrom id) between with
          ⟨cause, unrecorded⟩ | ⟨pruned, recorded⟩
        · rw [unrecorded] at stopped
          cases stopped
          exact .refl _
        · rw [recorded] at stopped
          cases stopped

theorem mirrors_of_failed (failed : (enact operation).run session = .error fault last) :
    session.Mirrors last := by
  obtain rfl | ⟨-, mirrors⟩ := failed_cases failed
  · exact .refl _
  · exact mirrors

theorem eq_of_failed (suits : session.Suits operation)
    (failed : (enact operation).run session = .error fault last) : last = session := by
  rcases suits with isSet | apart | ⟨cause, treeless⟩
  · obtain ⟨strict, rfl⟩ := exists_given isSet
    rw [run_enact_given] at failed
    exact settle_eq_error failed
  · exact eq_of_failed_apart apart failed
  · obtain same | ⟨⟨grown, between, shown⟩, -⟩ := failed_cases failed
    · exact same
    · nomatch treeless.symm.trans shown

/-! ## Runs with failures -/

/-- Every operation of a run only sets something, or fails without getting to a record that is no
set. -/
def ShowsNoTree (session : Session GivenRecord) : List Operation → Prop
  | [] => True
  | operation :: rest =>
    (operation.setsOnly = true ∨
        session.Suits operation ∧
          ∃ fault last, (enact operation).run session = .error fault last) ∧
      (session.afterEnact operation).ShowsNoTree rest

theorem afterEnact_of_failed (suits : session.Suits operation)
    (failed : (enact operation).run session = .error fault last) :
    session.afterEnact operation = session := by
  rw [afterEnact, failed]
  exact eq_of_failed suits failed

theorem ShowsNoTree.cons_failed (suits : session.Suits operation)
    (failed : (enact operation).run session = .error fault last)
    (later : session.ShowsNoTree rest) : session.ShowsNoTree (operation :: rest) := by
  rw [← afterEnact_of_failed suits failed] at later
  exact ⟨.inr ⟨suits, fault, last, failed⟩, later⟩

theorem ShowsNoTree.grown_enactAll (shows : session.ShowsNoTree operations) :
    (session.enactAll operations).grown = session.grown := by
  induction operations generalizing session with
  | nil => rfl
  | cons operation rest ih =>
      obtain ⟨first, later⟩ := shows
      refine (ih later).trans ?_
      rcases first with sets | ⟨suits, fault, last, failed⟩
      · exact (kept_afterEnact sets session).1
      · rw [afterEnact_of_failed suits failed]

/-- An operation that fails leaves the session exactly as it was, if the record is a set or the
operation does not get to it; in any case it leaves all but the kept tree. With a set for a record
every operation ends step by step as it does as a whole. So a full tree that has been shown is kept
while parameters are set and other operations fail, and is shown again for the same recipe. -/
theorem enact_atomic (session : Session GivenRecord) :
    (∀ operation fault last, (enact operation).run session = .error fault last →
        session.Mirrors last ∧ (session.Suits operation → last = session)) ∧
      (∀ (strict : Session) operation, (enact operation).run strict.given =
        settle strict.given
          ((strict.perform operation).map fun (outcome, next) => (outcome, next.given))) ∧
      ∀ grown next later, Act.wholeTree.run session = .ok grown next → next.ShowsNoTree later →
        session.recipe.agrees (next.enactAll later).recipe = true →
        Act.wholeTree.run (next.enactAll later) = .ok grown (next.enactAll later) := by
  refine ⟨?_, run_enact_given, ?_⟩
  · intro operation fault last failed
    exact ⟨mirrors_of_failed failed, fun suits => eq_of_failed suits failed⟩
  · intro grown next later shown shows sameAgain
    have whole := settle_eq_ok ((Act.run_wholeTree session).symm.trans shown)
    have stays := shows.grown_enactAll.trans (grown_of_wholeTree whole)
    rw [Act.run_wholeTree, wholeTree_of_agrees whole stays sameAgain]
    rfl

/-- A tree is shown, the iterations are set so high that none can grow, an angle is refused, and
the iterations are set back. The record is a number. -/
theorem enact_atomic_setBack :
    let start : Session GivenRecord := { initial with
      species := Catalog.entry "cane" "Cane" "Arundo" "F" Recipe.tenfold.productions 22.5 1.0
      iterations := .int 1
      pruned := .other (.int 5) }
    let later : List Operation :=
      [.withIterations (.int 7), .wholeTree, .comparison, .withAngle (.text "30"),
        .withIterations (.int 1)]
    ∃ grown next, Act.wholeTree.run start = .ok grown next ∧ next.ShowsNoTree later ∧
      start.recipe.agrees (next.enactAll later).recipe = true ∧
      Act.wholeTree.run (next.enactAll later) = .ok grown (next.enactAll later) := by
  intro start later
  obtain ⟨tree, grows⟩ : ∃ tree, start.recipe.grow none = .ok tree :=
    ⟨_, (Recipe.grow_eq_of_le rfl "F" Recipe.tenfold _ _ none (by decide) rfl).trans rfl⟩
  let grown : GrownTree := ⟨start.recipe, tree, 0⟩
  let next : Session GivenRecord := { start with grown := some grown, growths := 1 }
  let raised : Session GivenRecord := { next with iterations := .int 7 }
  have shown : Act.wholeTree.run start = .ok grown next := by
    rw [Act.run_wholeTree, wholeTree, regrow, grows]
    rfl
  obtain ⟨fault, noTree⟩ : ∃ fault, raised.wholeTree = .error fault := by
    have differs : start.recipe.agrees { start.recipe with iterations := .int 7 } = false := by
      decide +kernel
    obtain ⟨cause, refused⟩ := Recipe.exists_error_tenfold (.real 22.5) (.real 1.0)
    exact exists_error_wholeTree (fun kept held => Option.some.inj held ▸ differs) refused
  have treeless : Act.wholeTree.run raised = .error fault raised := by
    rw [Act.run_wholeTree, noTree]
    rfl
  have noTreeShown : (enact .wholeTree).run raised = .error fault raised := by
    rw [enact, Act.run_map _ (Act.run_wholeTree raised), noTree]
    rfl
  have noComparison : (enact .comparison).run raised = .error fault raised := by
    rw [enact, Act.run_map_eq_error, Act.comparison, Act.run_wholeTree_bind, noTree]
  have noAngle : (enact (.withAngle (.text "30"))).run raised = .error .unordered raised := rfl
  have treeSuits : raised.Suits .wholeTree := .inr (.inl rfl)
  have comparisonSuits : raised.Suits .comparison := .inr (.inr ⟨fault, treeless⟩)
  have angleSuits : raised.Suits (.withAngle (.text "30")) := .inr (.inl rfl)
  have shows : next.ShowsNoTree later :=
    ⟨.inl rfl, .cons_failed treeSuits noTreeShown (.cons_failed comparisonSuits noComparison
      (.cons_failed angleSuits noAngle ⟨.inl rfl, trivial⟩))⟩
  have back : next.enactAll later = next := by
    have raises : next.afterEnact (.withIterations (.int 7)) = raised := rfl
    rw [enactAll_cons, raises, enactAll_cons, afterEnact_of_failed treeSuits noTreeShown,
      enactAll_cons, afterEnact_of_failed comparisonSuits noComparison, enactAll_cons,
      afterEnact_of_failed angleSuits noAngle]
    rfl
  have sameAgain : start.recipe.agrees (next.enactAll later).recipe = true := by
    have same : start.recipe.agrees start.recipe = true := by decide +kernel
    rw [back]
    exact same
  exact ⟨grown, next, shown, shows, sameAgain,
    (enact_atomic start).2.2 grown next later shown shows sameAgain⟩

/-- The record is a list. A branch is pruned that the full tree has, so that something is to be
recorded; by then the tree is kept. -/
theorem enact_prune_list :
    let session : Session GivenRecord := { hedge with pruned := .other (.list []) }
    session.grown = none ∧ ∃ last,
      (enact (.prune "root-0")).run session = .error (.notASet (.list [])) last ∧
        last.grown ≠ none := by
  intro session
  obtain ⟨grown, next, whole⟩ : ∃ grown next, hedge.wholeTree = .ok (grown, next) :=
    exists_wholeTree_hedge rfl (.inl rfl) rfl
  have faithful : hedge.Faithful := .of_fresh rfl
  have reached : "root-0" ∈ grown.tree.idsFrom "root-0" := by
    rw [faithful.idsFrom_of_wholeTree whole rfl, Branch.idsFrom_eq]
    decide
  have something : (grown.tree.idsFrom "root-0").isEmpty = false := by
    refine Bool.eq_false_iff.mpr fun nothing => ?_
    rw [Std.ExtTreeSet.isEmpty_iff.mp nothing] at reached
    exact Std.ExtTreeSet.not_mem_empty reached
  have other : session.wholeTree = .ok (grown, { next with pruned := .other (.list []) }) := by
    rw [wholeTree_recording, whole]
    rfl
  have record : (Act.prune "root-0").run session =
      .error (.notASet (.list [])) { next with pruned := .other (.list []) } := by
    have below : "root-0" ≠ rootId := by decide
    rw [Act.prune, if_neg below, Act.run_wholeTree_bind, other]
    simp only [EStateM.run_bind, Act.record, something]
    rfl
  refine ⟨rfl, { next with pruned := .other (.list []) }, ?_, ?_⟩
  · rw [enact, Act.run_map_eq_error, record]
  · have kept : next.grown = some grown := grown_of_wholeTree whole
    simp [kept]

end Session

end Topiary
