import Topiary.Proofs.Service.Fields
import Topiary.Proofs.Session.Pruning
import Topiary.Service.Basic

set_option autoImplicit false

/-!
# Pruning without a session

The service forgets everything between requests. A client that sends back the pruned ids
of the last response sees what a session would show that is pruned in the same places.
-/

namespace Topiary

open Service

namespace Service

theorem handle_of_found {method target : String} {endpoint : Endpoint} (body : Option Value)
    (found : Endpoint.ofPath? (Address.pathOf target) = some endpoint)
    (allowed : endpoint.methods.contains method.toUpper = true) :
    handle ⟨method, target, body⟩ = serve endpoint body := by
  unfold handle
  dsimp only
  rw [found]
  dsimp only
  rw [if_pos allowed]

section

variable {form answer : Type} {ofEntries : List (String × Value) → Checked form}
  {act : form → Except Fault answer} {toValue : answer → Value} {body : Option Value}
  {content : form} (read : readForm ofEntries body = .ok content)

include read

theorem respond_ok {outcome : answer} (acted : act content = .ok outcome) :
    respond ofEntries act toValue body = .answer 200 (toValue outcome) := by
  simp only [respond, read, acted]

theorem respond_error {fault : Fault} (failed : act content = .error fault) :
    respond ofEntries act toValue body = ofFault fault := by
  simp only [respond, read, failed]

end

end Service

/-- What a client plants: a grammar of its own, and parameters within their ranges. -/
structure Planting where
  start : String
  rules : Rules
  iterations : Int
  angle : Float
  stepSize : Float
  iterations_ge : 1 ≤ iterations
  iterations_le : iterations ≤ 7
  angle_ge : 10.0 ≤ angle
  angle_le : angle ≤ 45.0
  stepSize_ge : 0.5 ≤ stepSize
  stepSize_le : stepSize ≤ 2.0
  length_le : (symbolsAfter start rules iterations.toNat).length ≤ Settings.standard.maxSymbols

namespace Planting

variable (planting : Planting)

def recipe : Recipe :=
  ⟨.ofTexts planting.start planting.rules, .int planting.iterations, .real planting.angle,
    .real planting.stepSize⟩

/-! ## The client -/

/-- The document that asks for a branch to be pruned, with the record of earlier prunings. -/
def document (record : Value) (id : String) : Value :=
  .dict [
    ("axiom", .text planting.start),
    ("rules", .dict (planting.rules.productions.map fun (key, replacement) =>
      (key, .text replacement))),
    ("iterations", .int planting.iterations),
    ("angle", .real planting.angle),
    ("step_size", .real planting.stepSize),
    ("branch_id", .text id),
    ("pruned_ids", record)]

def ask (record : Value) (id : String) : Response :=
  handle ⟨"POST", "/api/prune", some (planting.document record id)⟩

def nextRecord (record : Value) (response : Response) : Value :=
  match response with
  | .answer _ body => (body.get? "pruned_ids").getD record
  | _ => record

def recordAfter (record : Value) (clicked : List String) : Value :=
  clicked.foldl (fun record id => nextRecord record (planting.ask record id)) record

/-! ## What the service reads -/

def form : TreeForm :=
  ⟨none, some planting.start, planting.rules, planting.iterations, some planting.angle,
    some planting.stepSize⟩

theorem readForm_document (ids : List String) (id : String) :
    readForm PruneForm.ofEntries (some (planting.document (.list (ids.map .text)) id)) =
      .ok ⟨planting.form, id, ids⟩ := by
  have angle := boundedReal_real (fieldPlace "angle") planting.angle_ge planting.angle_le
  have stepSize := boundedReal_real (fieldPlace "step_size") planting.stepSize_ge
    planting.stepSize_le
  apply PruneForm.ofEntries_ok
  · apply TreeForm.ofEntries_ok
    · rfl
    · rfl
    · exact rulesField_dict _ planting.rules
    · exact iterationsField_int _ planting.iterations_ge planting.iterations_le
    · exact congrArg (Except.map some) angle
    · exact congrArg (Except.map some) stepSize
  · rfl
  · exact textsField_list _ ids

/-! ## What the service answers -/

theorem ask_eq (record : Value) (id : String) :
    planting.ask record id = respond PruneForm.ofEntries answerPruning PruneAnswer.toValue
      (some (planting.document record id)) := by
  have found : Endpoint.ofPath? (Address.pathOf "/api/prune") = some .prune := by decide +kernel
  have allowed : Endpoint.prune.methods.contains "POST".toUpper = true := by decide +kernel
  exact handle_of_found (some (planting.document record id)) found allowed

theorem growForm_form :
    growForm planting.form =
      (planting.recipe.grow none).map fun tree =>
        (⟨.null, planting.recipe.grammar, planting.iterations, planting.recipe.angle,
          planting.recipe.step⟩, tree) :=
  rfl

theorem exists_answerPruning {tree : Branch Float} (grows : planting.recipe.grow none = .ok tree)
    (ids : List String) (id : String) :
    let gone := IdSet.ofIds ids ∪ tree.takenFrom id
    ∃ answer, answer.segments = (tree.without gone).entries ∧
      answerPruning ⟨planting.form, id, ids⟩ = .ok ⟨(tree.takenFrom id).toList, gone.toList,
        Comparison.ofTrees tree (tree.without gone), answer⟩ := by
  intro gone
  rw [answerPruning, growForm_form, grows]
  exact ⟨_, rfl, rfl⟩

theorem exists_answer {tree : Branch Float} (grows : planting.recipe.grow none = .ok tree)
    (ids : List String) (id : String) :
    let gone := IdSet.ofIds ids ∪ tree.takenFrom id
    ∃ answer, answer.segments = (tree.without gone).entries ∧
      planting.ask (.list (ids.map .text)) id =
        .answer 200 (PruneAnswer.toValue ⟨(tree.takenFrom id).toList, gone.toList,
          Comparison.ofTrees tree (tree.without gone), answer⟩) := by
  intro gone
  obtain ⟨answer, segments, answered⟩ := planting.exists_answerPruning grows ids id
  refine ⟨answer, segments, ?_⟩
  rw [ask_eq]
  exact respond_ok (planting.readForm_document ids id) answered

theorem ask_of_fails {fault : Fault} (fails : planting.recipe.grow none = .error fault)
    (ids : List String) (id : String) :
    planting.ask (.list (ids.map .text)) id = ofFault fault := by
  have failed : answerPruning ⟨planting.form, id, ids⟩ = .error fault := by
    rw [answerPruning, growForm_form, fails]
    rfl
  rw [ask_eq]
  exact respond_error (planting.readForm_document ids id) failed

/-! ## The whole dialogue -/

theorem exists_recordAfter {tree : Branch Float} (grows : planting.recipe.grow none = .ok tree)
    (ids : List String) (clicked : List String) :
    ∃ listed : List String,
      planting.recordAfter (.list (ids.map .text)) clicked = .list (listed.map .text) ∧
        IdSet.ofIds listed =
          clicked.foldl (fun gone id => gone ∪ tree.takenFrom id) (IdSet.ofIds ids) := by
  -- Each response brings another record, so the induction is over all of them.
  induction clicked generalizing ids with
  | nil => exact ⟨ids, rfl, rfl⟩
  | cons id rest ih =>
      obtain ⟨answer, -, answered⟩ := planting.exists_answer grows ids id
      obtain ⟨listed, record, same⟩ := ih (IdSet.ofIds ids ∪ tree.takenFrom id).toList
      refine ⟨listed, ?_, ?_⟩
      · rw [← record, recordAfter, List.foldl_cons, answered]
        rfl
      · rw [same, IdSet.ofIds_toList, List.foldl_cons]

theorem recordAfter_of_fails (fails : planting.recipe.grow none = .error .axisWithoutLength)
    (ids : List String) (clicked : List String) :
    planting.recordAfter (.list (ids.map .text)) clicked = .list (ids.map .text) := by
  induction clicked with
  | nil => rfl
  | cons id rest ih =>
      rw [recordAfter, List.foldl_cons, planting.ask_of_fails fails]
      exact ih

theorem key_recipe : ∃ key, planting.recipe.key = .ok key :=
  ⟨_, rfl⟩

/-- Parameters within their ranges leave one way in which no tree grows: a turn whose axis has
no length. -/
theorem grow_recipe : (∃ tree, planting.recipe.grow none = .ok tree) ∨
    planting.recipe.grow none = .error .axisWithoutLength := by
  have valid : generations (.int planting.iterations) = .ok planting.iterations.toNat :=
    if_neg (Int.not_lt.mpr (Int.le_trans (by decide) planting.iterations_ge))
  have within : (symbolsAfter planting.start planting.rules planting.iterations.toNat).length ≤
      Recipe.boundOf none := Int.ofNat_le.mpr planting.length_le
  have drawn := Recipe.grow_of_le valid planting.start planting.rules (.real planting.angle)
    (.real planting.stepSize) none within
  have angleFinite := Numeral.Number.isFinite_of_between rfl rfl planting.angle_ge
    planting.angle_le
  have stepFinite := Numeral.Number.isFinite_of_between rfl rfl planting.stepSize_ge
    planting.stepSize_le
  rw [recipe]
  rw [Option.map_none] at drawn
  rw [drawn]
  exact drawTree_real _ angleFinite stepFinite

/-- What a response tells of a pruning that leads a session to its next state. -/
structure Tells (body : Value) (removed : IdSet) (next : Session) : Prop where
  removedIds : body.get? "removed_ids" = some (.list (removed.toList.map .text))
  prunedIds : ∃ record, next.pruned.toList = .ok record ∧
    body.get? "pruned_ids" = some (.list record)
  segments : ∃ tree last, next.trimmedTree = .ok (tree, last) ∧
    (body.get? "tree").bind (·.get? "segments") = some (.list (tree.entries.map Entry.toValue))
  summary : ∃ comparison last, next.comparison = .ok (comparison, last) ∧
    body.get? "summary" = some comparison.toValue

/-- A client that always sends the last record back is told what a session does that is pruned in
the same places. If a turn without an axis keeps the tree from growing, both fail with that. -/
theorem ask_tells {session : Session} {ids : List String}
    (sameRecipe : session.recipe = planting.recipe) (unkept : session.grown = none)
    (sameRecord : session.pruned = ⟨IdSet.ofIds ids, []⟩) :
    ((∃ tree, planting.recipe.grow none = .ok tree) ∧
        ∀ clicked id, ∃ removed next body,
          (session.afterAll (clicked.map .prune)).prune id = .ok (removed, next) ∧
            planting.ask (planting.recordAfter (.list (ids.map .text)) clicked) id =
              .answer 200 body ∧
            Tells body removed next) ∨
      (planting.recipe.grow none = .error .axisWithoutLength ∧
        ∀ clicked id,
          (session.afterAll (clicked.map .prune)).wholeTree = .error .axisWithoutLength ∧
            planting.ask (planting.recordAfter (.list (ids.map .text)) clicked) id =
              detail 400 Fault.axisWithoutLength.message) := by
  obtain ⟨key, keyed⟩ := planting.key_recipe
  rcases planting.grow_recipe with ⟨tree, grows⟩ | fails
  · refine .inl ⟨⟨tree, grows⟩, ?_⟩
    intro clicked id
    have shows : session.Shows planting.recipe tree (IdSet.ofIds ids) :=
      ⟨sameRecipe, fun _ held => (nomatch unkept.symm.trans held), sameRecord⟩
    obtain ⟨listed, record, same⟩ := planting.exists_recordAfter grows ids clicked
    obtain ⟨answer, segments, answered⟩ := planting.exists_answer grows listed id
    rw [same] at segments answered
    obtain ⟨next, pruned, showsNext⟩ := (shows.afterAll keyed grows clicked).prune keyed grows id
    rw [record]
    refine ⟨_, next, _, pruned, answered, rfl, ?_, ?_, ?_⟩
    · rw [showsNext.record]
      exact ⟨_, rfl, rfl⟩
    · obtain ⟨last, trimmed⟩ := showsNext.trimmedTree keyed grows
      refine ⟨_, last, trimmed, ?_⟩
      rw [← segments]
      rfl
    · obtain ⟨last, compared⟩ := showsNext.comparison keyed grows
      exact ⟨_, last, compared, rfl⟩
  · refine .inr ⟨fails, ?_⟩
    intro clicked id
    rw [← sameRecipe] at keyed
    have failsHere := fails
    rw [← sameRecipe] at failsHere
    rw [Session.afterAll_prune_of_fails keyed unkept failsHere,
      planting.recordAfter_of_fails fails]
    exact ⟨Session.wholeTree_of_fails keyed unkept failsHere, planting.ask_of_fails fails ids id⟩

def hedge : Planting where
  start := "FX"
  rules := ⟨[("F", "FF"), ("X", "[F]")]⟩
  iterations := 1
  angle := 22.5
  stepSize := 1.0
  iterations_ge := by decide
  iterations_le := by decide
  angle_ge := by decide +kernel
  angle_le := by decide +kernel
  stepSize_ge := by decide +kernel
  stepSize_le := by decide +kernel
  length_le := by decide

theorem ask_tells_hedge :
    let session : Session := { Session.initial with
      species := Catalog.entry "hedge" "Hedge" "Carpinus" hedge.start hedge.rules.productions
        22.5 1.0
      iterations := .int 1
      pruned := ⟨IdSet.ofIds ["root-7", "root-7"], []⟩ }
    session.recipe = hedge.recipe ∧ session.grown = none ∧
      ∃ removed next body,
        (session.after (.prune "root-0-0")).prune "root" = .ok (removed, next) ∧
          hedge.ask (hedge.recordAfter (.list [.text "root-7", .text "root-7"]) ["root-0-0"])
            "root" = .answer 200 body ∧
          Tells body removed next := by
  intro session
  have sameRecipe : session.recipe = hedge.recipe := rfl
  have grows : hedge.recipe.grow none = .ok _ :=
    (Recipe.grow_of_le rfl hedge.start hedge.rules _ _ none (by decide)).trans
      ((drawTree_eq _ rfl).trans rfl)
  refine ⟨sameRecipe, rfl, ?_⟩
  rcases hedge.ask_tells sameRecipe rfl rfl with ⟨-, steps⟩ | ⟨fails, -⟩
  · exact steps ["root-0-0"] "root"
  · nomatch fails.symm.trans grows

end Planting

end Topiary
