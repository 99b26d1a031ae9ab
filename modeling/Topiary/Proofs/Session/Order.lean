import Topiary.Proofs.Session.Exactness
import Topiary.Proofs.Session.Faithful

set_option autoImplicit false

/-!
# In which order branches are pruned

Angle, step and thickness change where the segments of a tree stand, but not which segments
there are. So a branch takes the same with it whenever it is pruned, before or after such a
change and before or after other branches, and what is recorded in the end depends only on
which branches have been pruned.
-/

namespace Topiary

/-! ## Parameters that are set anew -/

namespace Value

/-- Where the values are equal, they become the same real number. This fails for zeros of
different signs. -/
def SameReal (left right : Value) : Prop :=
  left.agreesWith true right = true → left.toReal = right.toReal

/-- A parameter that is left as it was or set to a positive number. -/
def Retuned (before after : Value) : Prop :=
  after = before ∨ ∃ number : Float, 0 < number ∧ after = .real number

namespace Retuned

variable {before between after left right value : Value}

theorem refl (value : Value) : value.Retuned value :=
  .inl rfl

theorem trans (first : before.Retuned between) (second : between.Retuned after) :
    before.Retuned after := by
  rcases second with rfl | number
  · exact first
  · exact .inr number

theorem sameReal (retuned : before.Retuned after) (same : value.SameReal before) :
    value.SameReal after := by
  rcases retuned with rfl | ⟨number, positive, rfl⟩
  · exact same
  · exact toReal_of_agreesWith positive

theorem toReal_eq (retuned : before.Retuned left) (otherRetuned : before.Retuned right)
    (agree : left.agreesWith true right = true) : left.toReal = right.toReal := by
  rcases otherRetuned with rfl | ⟨number, positive, rfl⟩
  · rcases retuned with rfl | ⟨number, positive, rfl⟩
    · rfl
    · exact (toReal_of_agreesWith positive (agreesWith_real_comm.mp agree)).symm
  · exact toReal_of_agreesWith positive agree

end Retuned

end Value

/-- The operations that shape a tree: they leave its symbols as they are and forget nothing. -/
inductive Operation.Shapes : Operation → Prop where
  | prune (id : String) : Shapes (.prune id)
  | withAngle (value : Value) : Shapes (.withAngle value)
  | withStepSize (value : Value) : Shapes (.withStepSize value)
  | withThickness (value : Value) : Shapes (.withThickness value)
  | wholeTree : Shapes .wholeTree
  | trimmedTree : Shapes .trimmedTree
  | comparison : Shapes .comparison

theorem Branch.takenFrom_congr {α β : Type} {tree : Branch α} {other : Branch β}
    (same : tree.outline = other.outline) (id : String) :
    tree.takenFrom id = other.takenFrom id := by
  rw [takenFrom, takenFrom, idsFrom_congr same]

namespace Session

variable {start session between next left right : Session} {operation : Operation}
  {operations : List Operation} {grown : GrownTree}

def performAll (session : Session) : List Operation → Except Fault Session
  | [] => .ok session
  | operation :: rest =>
    match session.perform operation with
    | .error fault => .error fault
    | .ok (_, next) => next.performAll rest

/-- If a session keeps a tree, then the angle and the step of this tree become the same real
numbers as those of the session that they equal. -/
def KeepsReals (session : Session) : Prop :=
  ∀ kept, session.grown = some kept →
    kept.recipe.angle.SameReal session.angle ∧ kept.recipe.step.SameReal session.stepSize

/-- What is shown has grown from the very recipe of the session, if equal parameters of the kept
tree are the same real numbers. -/
theorem Faithful.grow_of_wholeTree (faithful : session.Faithful) (reals : session.KeepsReals)
    (whole : session.wholeTree = .ok (grown, between)) :
    session.recipe.grow none = .ok grown.tree := by
  obtain ⟨alike, sameIterations⟩ := faithful.expandsLike_of_wholeTree whole
  obtain ⟨held, agree, -⟩ | ⟨-, -, -, grows, -⟩ := shown_cases whole
  · obtain ⟨-, -, -, -, -, -, -, angles, steps⟩ := Recipe.parts_of_agrees agree
    obtain ⟨sameAngle, sameStep⟩ := reals grown held
    exact Recipe.grow_congr alike sameIterations (sameAngle angles) (sameStep steps)
      (faithful.coherent.grows_of_wholeTree whole)
  · exact grows

/-! ## What a run of such operations does -/

/-- The symbols stay, the parameters are left or set, and the record grows by what the pruned
branches have at and under them in the given tree. -/
structure Shaped {α : Type} (tree : Branch α) (session : Session) (operations : List Operation)
    (next : Session) : Prop where
  species : next.species = session.species
  iterations : next.iterations = session.iterations
  angle : session.angle.Retuned next.angle
  stepSize : session.stepSize.Retuned next.stepSize
  strays : next.pruned.strays = session.pruned.strays
  ids : ∀ id, id ∈ next.pruned.ids ↔
    id ∈ session.pruned.ids ∨ ∃ clicked, .prune clicked ∈ operations ∧ id ∈ tree.takenFrom clicked
  faithful : next.Faithful
  reals : session.KeepsReals → next.KeepsReals

namespace Shaped

variable {α : Type} {tree : Branch α}

theorem nil (faithful : session.Faithful) : session.Shaped tree [] session where
  species := rfl
  iterations := rfl
  angle := .refl _
  stepSize := .refl _
  strays := rfl
  ids id := by simp
  faithful := faithful
  reals := id

theorem cons {rest : List Operation} (first : session.Shaped tree [operation] between)
    (others : between.Shaped tree rest next) : session.Shaped tree (operation :: rest) next where
  species := others.species.trans first.species
  iterations := others.iterations.trans first.iterations
  angle := first.angle.trans others.angle
  stepSize := first.stepSize.trans others.stepSize
  strays := others.strays.trans first.strays
  ids id := by
    rw [others.ids, first.ids]
    constructor
    · rintro ((recorded | ⟨clicked, member, taken⟩) | ⟨clicked, member, taken⟩)
      · exact .inl recorded
      · exact .inr ⟨clicked, List.mem_cons.mpr (.inl (List.mem_singleton.mp member)), taken⟩
      · exact .inr ⟨clicked, List.mem_cons_of_mem _ member, taken⟩
    · rintro (recorded | ⟨clicked, member, taken⟩)
      · exact .inl (.inl recorded)
      · rcases List.mem_cons.mp member with same | later
        · exact .inl (.inr ⟨clicked, List.mem_singleton.mpr same, taken⟩)
        · exact .inr ⟨clicked, later, taken⟩
  faithful := others.faithful
  reals := others.reals ∘ first.reals

theorem recipe_outline (shaped : session.Shaped tree operations next) :
    next.recipe.outline = session.recipe.outline := by
  apply Recipe.outline_congr
  rw [Recipe.symbols, Recipe.symbols, recipe, recipe, shaped.species, shaped.iterations]

end Shaped

theorem KeepsReals.of_pos {number other : Float} (angle : session.angle = .real number)
    (stepSize : session.stepSize = .real other) (positive : 0 < number)
    (otherPositive : 0 < other) : session.KeepsReals := by
  intro kept held
  rw [angle, stepSize]
  exact ⟨Value.toReal_of_agreesWith positive, Value.toReal_of_agreesWith otherPositive⟩

theorem KeepsReals.of_tends (reals : session.KeepsReals) (tends : session.Tends next)
    (angle : session.angle.Retuned next.angle)
    (stepSize : session.stepSize.Retuned next.stepSize) : next.KeepsReals := by
  intro kept held
  cases tends with
  | leaves grown growths =>
      obtain ⟨sameAngle, sameStep⟩ := reals kept (grown.symm.trans held)
      exact ⟨angle.sameReal sameAngle, stepSize.sameReal sameStep⟩
  | regrows differs grows fresh grown growths =>
      cases grown.symm.trans held
      exact ⟨angle.sameReal fun _ => rfl, stepSize.sameReal fun _ => rfl⟩

theorem Effect.shapes_cases (effect : session.Effect next operation) (shapes : operation.Shapes) :
    next.species = session.species ∧ next.iterations = session.iterations ∧
      session.angle.Retuned next.angle ∧ session.stepSize.Retuned next.stepSize ∧
      ((∀ clicked, operation ≠ .prune clicked) ∧ next.pruned = session.pruned ∨
        ∃ clicked, operation = .prune clicked ∧ (clicked = rootId ∧ next.pruned = session.pruned ∨
          ∃ grown between, session.wholeTree = .ok (grown, between) ∧
            next.pruned = session.pruned.including (grown.tree.takenFrom clicked))) := by
  cases shapes with
  | prune id =>
      obtain ⟨root, rfl⟩ | ⟨grown, between, whole, rfl⟩ := effect
      · exact ⟨rfl, rfl, .refl _, .refl _, .inr ⟨id, rfl, .inl ⟨root, rfl⟩⟩⟩
      · rw [mirrors_wholeTree whole]
        exact ⟨rfl, rfl, .refl _, .refl _, .inr ⟨id, rfl, .inr ⟨grown, between, whole, rfl⟩⟩⟩
  | withAngle value =>
      obtain ⟨angle, checked, rfl⟩ := effect
      obtain ⟨number, rfl, positive⟩ := exists_pos_of_angle checked
      exact ⟨rfl, rfl, .inr ⟨number, positive, rfl⟩, .refl _, .inl ⟨nofun, rfl⟩⟩
  | withStepSize value =>
      obtain ⟨stepSize, checked, rfl⟩ := effect
      obtain ⟨number, rfl, positive⟩ := exists_pos_of_stepSize checked
      exact ⟨rfl, rfl, .refl _, .inr ⟨number, positive, rfl⟩, .inl ⟨nofun, rfl⟩⟩
  | withThickness value =>
      obtain ⟨thickness, -, rfl⟩ := effect
      exact ⟨rfl, rfl, .refl _, .refl _, .inl ⟨nofun, rfl⟩⟩
  | wholeTree | trimmedTree | comparison =>
      rw [effect]
      exact ⟨rfl, rfl, .refl _, .refl _, .inl ⟨nofun, rfl⟩⟩

theorem Faithful.shaped {outcome : Outcome} {tree : Branch Float} (faithful : session.Faithful)
    (outlined : session.recipe.outline = .ok tree.outline) (shapes : operation.Shapes)
    (performed : session.perform operation = .ok (outcome, next)) :
    session.Shaped tree [operation] next := by
  have after := after_of_ok performed
  have texts : session.KeepsToTexts [operation] := by
    intro species member
    cases List.mem_singleton.mp member
    nomatch shapes
  obtain ⟨species, iterations, angle, stepSize, record⟩ :=
    (effect_of_perform performed).shapes_cases shapes
  have recorded : next.pruned.strays = session.pruned.strays ∧ ∀ id, id ∈ next.pruned.ids ↔
      id ∈ session.pruned.ids ∨
        ∃ clicked, .prune clicked ∈ [operation] ∧ id ∈ tree.takenFrom clicked := by
    rcases record with ⟨unpruned, same⟩ | ⟨clicked, rfl, taken⟩
    · rw [same]
      refine ⟨rfl, fun id => (or_iff_left ?_).symm⟩
      rintro ⟨clicked, member, -⟩
      exact unpruned clicked (List.mem_singleton.mp member).symm
    · have same : next.pruned = session.pruned.including (tree.takenFrom clicked) := by
        rcases taken with ⟨rfl, same⟩ | ⟨grown, between, whole, same⟩
        · rw [same, Branch.takenFrom, if_pos rfl, PruneRecord.including, IdSet.union_empty]
        · -- The branch is looked up in another tree, but one with the same outline.
          have sameOutline : grown.tree.outline = tree.outline :=
            Except.ok.inj ((faithful.outline_of_wholeTree whole).symm.trans outlined)
          rw [same, Branch.takenFrom_congr sameOutline]
      rw [same]
      refine ⟨rfl, fun id => ?_⟩
      simp [PruneRecord.including, Std.ExtTreeSet.mem_union_iff]
  exact {
    species := species
    iterations := iterations
    angle := angle
    stepSize := stepSize
    strays := recorded.1
    ids := recorded.2
    faithful := after ▸ faithful.after texts
    reals := fun reals => reals.of_tends (after ▸ tends_after session operation) angle stepSize }

theorem Faithful.shaped_of_performAll {tree : Branch Float} (faithful : session.Faithful)
    (outlined : session.recipe.outline = .ok tree.outline)
    (shapes : ∀ operation ∈ operations, operation.Shapes)
    (performed : session.performAll operations = .ok next) :
    session.Shaped tree operations next := by
  induction operations generalizing session with
  | nil =>
      cases performed
      exact .nil faithful
  | cons operation rest ih =>
      rw [performAll] at performed
      cases stepped : session.perform operation with
      | error fault => simp [stepped] at performed
      | ok result =>
          obtain ⟨outcome, between⟩ := result
          simp only [stepped] at performed
          -- The outline of the first tree is the one of every tree in the course of the run.
          have first := faithful.shaped outlined (shapes _ List.mem_cons_self) stepped
          have others := ih first.faithful (first.recipe_outline.trans outlined)
            (fun other member => shapes other (List.mem_cons_of_mem _ member)) performed
          exact first.cons others

/-! ## The order does not matter -/

theorem exists_key_of_wholeTree (whole : session.wholeTree = .ok (grown, between)) :
    ∃ key, session.recipe.key = .ok key := by
  cases keyed : session.recipe.key with
  | error fault =>
      rw [wholeTree, keyed] at whole
      cases whole
  | ok key => exact ⟨key, rfl⟩

namespace Shaped

variable {α : Type} {tree : Branch α} {others : List Operation} {shown : Branch Float}

theorem trimmedTree_congr (shaped : session.Shaped tree operations left)
    (otherShaped : session.Shaped tree others right) (reals : left.KeepsReals)
    (otherReals : right.KeepsReals) (sameAngle : left.angle.toReal = right.angle.toReal)
    (sameStep : left.stepSize.toReal = right.stepSize.toReal)
    (sameRecord : left.pruned = right.pruned)
    (trimmed : left.trimmedTree = .ok (shown, next)) :
    ∃ last, right.trimmedTree = .ok (shown, last) := by
  obtain ⟨grown, whole, rfl⟩ := exists_wholeTree_of_trimmedTree trimmed
  have sameSpecies : left.species = right.species := shaped.species.trans otherShaped.species.symm
  have grows : right.recipe.grow none = .ok grown.tree := by
    have leftGrows := shaped.faithful.grow_of_wholeTree reals whole
    refine Recipe.grow_congr ?_ ?_ sameAngle sameStep leftGrows
    · intro count
      rw [recipe, recipe, sameSpecies]
      exact ⟨rfl, rfl⟩
    · exact shaped.iterations.trans otherShaped.iterations.symm
  obtain ⟨key, keyed⟩ := exists_key_of_wholeTree whole
  obtain ⟨rules, sorted, -⟩ := map_eq_ok_iff.mp keyed
  have otherKeyed : right.recipe.key = .ok _ :=
    map_eq_ok_iff.mpr ⟨rules, by rwa [recipe, ← sameSpecies], rfl⟩
  obtain ⟨again, last, otherWhole⟩ := exists_wholeTree otherKeyed grows
  have sameTree : again.tree = grown.tree := Except.ok.inj
    ((otherShaped.faithful.grow_of_wholeTree otherReals otherWhole).symm.trans grows)
  refine ⟨last, ?_⟩
  rw [trimmedTree_of_wholeTree otherWhole, sameTree, sameRecord]

/-- The pruned trees differ at most in their coordinates, whatever angle and step they end with. -/
theorem outline_trimmedTree {other : Branch Float} {last : Session}
    (shaped : session.Shaped tree operations left) (otherShaped : session.Shaped tree others right)
    (sameRecord : left.pruned = right.pruned)
    (trimmed : left.trimmedTree = .ok (shown, next))
    (otherTrimmed : right.trimmedTree = .ok (other, last)) : shown.outline = other.outline := by
  obtain ⟨grown, whole, rfl⟩ := exists_wholeTree_of_trimmedTree trimmed
  obtain ⟨otherGrown, otherWhole, rfl⟩ := exists_wholeTree_of_trimmedTree otherTrimmed
  have distinct := shaped.faithful.coherent.distinctIds_of_wholeTree whole
  have otherDistinct := otherShaped.faithful.coherent.distinctIds_of_wholeTree otherWhole
  have outlined := shaped.faithful.outline_of_wholeTree whole
  have otherOutlined := otherShaped.faithful.outline_of_wholeTree otherWhole
  rw [shaped.recipe_outline] at outlined
  rw [otherShaped.recipe_outline] at otherOutlined
  have sameOutline : grown.tree.outline = otherGrown.tree.outline :=
    Except.ok.inj (outlined.symm.trans otherOutlined)
  rw [← sameRecord, Branch.outline, Branch.outline, ← Branch.without_map distinct,
    ← Branch.without_map otherDistinct]
  exact congrArg (fun outline => outline.without left.pruned.ids) sameOutline

end Shaped

/-- Two runs that prune the same branches, in any order, as often as they like and with any changes
of angle, step and thickness between, end with the same record: what was recorded at first, and
what the pruned branches have at and under them in the full tree at first. Their pruned trees have
the same outline. With the same angle and step they are the same tree, unless a tree is kept for a
zero of the other sign: with parameters that have been set this cannot be. -/
theorem performAll_unordered (fresh : start.grown = none) (prior operations others : List Operation)
    (texts : start.KeepsToTexts prior)
    (whole : (start.afterAll prior).wholeTree = .ok (grown, between))
    (shapes : ∀ operation ∈ operations ++ others, operation.Shapes)
    (performed : (start.afterAll prior).performAll operations = .ok left)
    (otherPerformed : (start.afterAll prior).performAll others = .ok right)
    (sameClicks : ∀ id, .prune id ∈ operations ↔ .prune id ∈ others) :
    (left.pruned.strays = (start.afterAll prior).pruned.strays ∧
      ∀ id, id ∈ left.pruned.ids ↔ id ∈ (start.afterAll prior).pruned.ids ∨
        ∃ clicked, .prune clicked ∈ operations ∧ id ∈ grown.tree.takenFrom clicked) ∧
    left.pruned = right.pruned ∧
    (∀ shown other last otherLast, left.trimmedTree = .ok (shown, last) →
      right.trimmedTree = .ok (other, otherLast) → shown.outline = other.outline) ∧
    ((start.afterAll prior).KeepsReals ∨ left.KeepsReals ∧ right.KeepsReals →
      left.angle.agreesWith true right.angle = true →
      left.stepSize.agreesWith true right.stepSize = true → ∀ shown,
        (∃ last, left.trimmedTree = .ok (shown, last)) ↔
          ∃ last, right.trimmedTree = .ok (shown, last)) := by
  have faithful : (start.afterAll prior).Faithful := (Faithful.of_fresh fresh).afterAll texts
  have outlined := faithful.outline_of_wholeTree whole
  have shaped := faithful.shaped_of_performAll outlined
    (fun operation member => shapes operation (List.mem_append_left _ member)) performed
  have otherShaped := faithful.shaped_of_performAll outlined
    (fun operation member => shapes operation (List.mem_append_right _ member)) otherPerformed
  have sameRecord : left.pruned = right.pruned := by
    have sameIds : left.pruned.ids = right.pruned.ids := by
      apply Std.ExtTreeSet.ext_mem
      intro id
      rw [shaped.ids, otherShaped.ids]
      simp only [sameClicks]
    have sameStrays := shaped.strays.trans otherShaped.strays.symm
    cases leftRecord : left.pruned
    cases rightRecord : right.pruned
    rw [leftRecord, rightRecord] at sameIds sameStrays
    rw [PruneRecord.mk.injEq]
    exact ⟨sameIds, sameStrays⟩
  refine ⟨⟨shaped.strays, shaped.ids⟩, sameRecord, ?_, ?_⟩
  · intro shown other last otherLast
    exact shaped.outline_trimmedTree otherShaped sameRecord
  · intro reals angles steps shown
    obtain ⟨leftReals, rightReals⟩ : left.KeepsReals ∧ right.KeepsReals := by
      rcases reals with atFirst | atLast
      · exact ⟨shaped.reals atFirst, otherShaped.reals atFirst⟩
      · exact atLast
    have sameAngle := shaped.angle.toReal_eq otherShaped.angle angles
    have sameStep := shaped.stepSize.toReal_eq otherShaped.stepSize steps
    constructor
    · rintro ⟨last, trimmed⟩
      exact shaped.trimmedTree_congr otherShaped leftReals rightReals sameAngle sameStep
        sameRecord trimmed
    · rintro ⟨last, trimmed⟩
      exact otherShaped.trimmedTree_congr shaped rightReals leftReals sameAngle.symm sameStep.symm
        sameRecord.symm trimmed

/-- A full tree is shown and kept; then a branch is pruned, before the angle is changed and after. -/
theorem performAll_unordered_turned : ∃ session left right grown between,
    hedge.afterAll [.wholeTree] = session ∧ hedge.grown = none ∧
      hedge.KeepsToTexts [.wholeTree] ∧ session.wholeTree = .ok (grown, between) ∧
      session.performAll [.prune "root-0-0", .withAngle (.int 30)] = .ok left ∧
      session.performAll [.withAngle (.int 30), .prune "root-0-0"] = .ok right ∧
      session.KeepsReals ∧ left.pruned = right.pruned ∧
      ∀ shown, (∃ last, left.trimmedTree = .ok (shown, last)) ↔
        ∃ last, right.trimmedTree = .ok (shown, last) := by
  have fresh : hedge.grown = none := rfl
  have texts : hedge.KeepsToTexts [.wholeTree] := fun species member => by simp at member
  obtain ⟨kept, session, look⟩ : ∃ kept next, hedge.wholeTree = .ok (kept, next) :=
    exists_wholeTree_hedge rfl (.inl rfl) rfl
  have run : hedge.afterAll [.wholeTree] = session := by
    have performed : hedge.perform .wholeTree = .ok (_, session) :=
      map_eq_ok_iff.mpr ⟨_, look, rfl⟩
    rw [afterAll_cons, after_of_ok performed, afterAll_nil]
  have mirrors : hedge.Mirrors session := mirrors_wholeTree look
  have angle : session.angle = .real 22.5 := by
    rw [mirrors]
    rfl
  have stepSize : session.stepSize = .real 1.0 := by
    rw [mirrors]
    rfl
  have reals : session.KeepsReals := .of_pos angle stepSize (by decide) (by decide)
  obtain ⟨grown, between, whole⟩ : ∃ grown between, session.wholeTree = .ok (grown, between) := by
    rw [mirrors]
    exact exists_wholeTree_hedge rfl (.inl rfl) rfl
  obtain ⟨early, pruned, changed, -⟩ := prune_of_wholeTree whole "root-0-0"
  obtain ⟨otherGrown, otherBetween, otherWhole⟩ : ∃ grown between,
      ({ session with angle := .real 30.0 } : Session).wholeTree = .ok (grown, between) := by
    rw [mirrors]
    exact exists_wholeTree_hedge rfl (.inl rfl) rfl
  obtain ⟨right, otherPruned, otherChanged, -⟩ := prune_of_wholeTree otherWhole "root-0-0"
  have performed : session.performAll [.prune "root-0-0", .withAngle (.int 30)] =
      .ok { early with angle := .real 30.0 } := by
    rw [performAll, perform, pruned]
    rfl
  have otherPerformed : session.performAll [.withAngle (.int 30), .prune "root-0-0"] =
      .ok right := by
    have set : session.perform (.withAngle (.int 30)) =
        .ok (.nothing, { session with angle := .real 30.0 }) := rfl
    rw [performAll, set]
    simp only [performAll, perform, otherPruned, Except.map]
  have shapes : ∀ operation : Operation, operation ∈
      [.prune "root-0-0", .withAngle (.int 30)] ++ [.withAngle (.int 30), .prune "root-0-0"] →
        operation.Shapes := by
    simp only [List.cons_append, List.nil_append, List.forall_mem_cons]
    exact ⟨.prune _, .withAngle _, .withAngle _, .prune _, List.forall_mem_nil _⟩
  refine ⟨session, _, right, grown, between, run, fresh, texts, whole, performed, otherPerformed,
    reals, ?_⟩
  rw [← run] at whole performed otherPerformed reals
  obtain ⟨-, sameRecord, -, sameTree⟩ := performAll_unordered fresh [.wholeTree] _ _ texts whole
    shapes performed otherPerformed (fun id => by simp)
  refine ⟨sameRecord, sameTree (.inl reals) ?_ ?_⟩
  · rw [otherChanged]
    rfl
  · rw [changed, otherChanged]
    change session.stepSize.agreesWith true session.stepSize = true
    rw [stepSize]
    rfl

end Session

end Topiary
