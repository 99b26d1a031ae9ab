import Topiary.Proofs.Service.Answers
import Topiary.Proofs.Service.Dialogue

set_option autoImplicit false

/-!
# The species beside a grammar of one's own

A request that brings a grammar of its own may still name a species. What the species has
besides its grammar is looked up all the same: its defaults fill the gaps of the form, and
a species that is not in the catalog is not found. Nothing else of it shows.
-/

namespace Topiary.Service

/-- The species that a document chooses: the standard one unless it names another. -/
def speciesNamed? (entries : List (String × Value)) : Option Species :=
  match entries.lookup "species_id" with
  | none | some .null => some Catalog.standard
  | some (.text id) => if id = "" then some Catalog.standard else Catalog.find? id
  | some _ => none

/-- The defaults that a document leaves to its species are the same for two species. -/
structure SameDefaults (entries : List (String × Value)) (species other : Species) : Prop where
  angle : (entries.lookup "angle").getD .null = .null → other.defaultAngle = species.defaultAngle
  stepSize : (entries.lookup "step_size").getD .null = .null →
    other.defaultStep = species.defaultStep

variable {entries others : List (String × Value)} {species other : Species} {form : TreeForm}
  {start : String}

/-! ## Plans of forms with a grammar -/

theorem optionalField_eq_none_iff {σ : Type} {read : List Step → Value → Checked σ}
    {place : List Step} {value : Option Value} {content : Option σ}
    (fieldRead : optionalField read place value = .ok content) :
    content = none ↔ value.getD .null = .null := by
  rw [optionalField.eq_def] at fieldRead
  split at fieldRead
  · cases fieldRead
    simp
  · cases fieldRead
    simp
  · next given notNull =>
    obtain ⟨inner, -, rfl⟩ := map_eq_ok_iff.mp fieldRead
    simpa using notNull

theorem TreeForm.ReadsFields.start_of_text (reads : form.ReadsFields entries)
    (given : entries.lookup "axiom" = some (.text start)) : form.start = some start := by
  have field := reads.start
  rw [given] at field
  exact (Except.ok.inj field).symm

/-- A document that names a species, or none, has a field that can be read and leads to it. -/
theorem exists_speciesId (named : speciesNamed? entries = some species) (place : List Step) :
    ∃ speciesId, optionalField textField place (entries.lookup "species_id") = .ok speciesId ∧
      chosen speciesId = .ok species := by
  rw [speciesNamed?] at named
  cases field : entries.lookup "species_id" with
  | none =>
      rw [field] at named
      cases named
      exact ⟨none, rfl, rfl⟩
  | some value =>
      rw [field] at named
      cases value with
      | null =>
          cases named
          exact ⟨none, rfl, rfl⟩
      | text id =>
          refine ⟨some id, rfl, ?_⟩
          by_cases empty : id = ""
          · simp only [if_pos empty] at named
            cases named
            rw [empty]
            rfl
          · simp only [if_neg empty] at named
            rw [chosen_some empty, Catalog.species]
            simp only [named]
      | bool _ | int _ | real _ | list _ | dict _ => cases named

theorem Plan.ofForm_of_start (given : form.start = some start)
    (found : chosen form.speciesId = .ok species) :
    Plan.ofForm form = .ok
      { speciesId := .null
        grammar := .ofTexts start form.rules
        iterations := form.iterations
        angle := (form.angle.map .real).getD species.defaultAngle
        stepSize := (form.stepSize.map .real).getD species.defaultStep } := by
  rw [Plan.ofForm_eq, found, given]
  rfl

/-! ## Documents that differ in their species -/

namespace TreeForm

/-- A form that names another species. -/
def naming (form : TreeForm) (speciesId : Option String) : TreeForm :=
  { form with speciesId := speciesId }

theorem ofEntries_naming {speciesId otherId : Option String}
    (sameFields : ∀ name, name ≠ "species_id" → others.lookup name = entries.lookup name)
    (read : optionalField textField (fieldPlace "species_id") (entries.lookup "species_id") =
      .ok speciesId)
    (otherRead : optionalField textField (fieldPlace "species_id") (others.lookup "species_id") =
      .ok otherId) :
    ofEntries others = (ofEntries entries).map (·.naming otherId) := by
  rw [ofEntries, ofEntries, read, otherRead, sameFields "axiom" (by decide),
    sameFields "rules" (by decide), sameFields "iterations" (by decide),
    sameFields "angle" (by decide), sameFields "step_size" (by decide)]
  generalize Checked.both (optionalField textField (fieldPlace "axiom") _) _ = rest
  cases rest <;> rfl

end TreeForm

theorem PruneForm.ofEntries_naming {otherId : Option String}
    (sameFields : ∀ name, name ≠ "species_id" → others.lookup name = entries.lookup name)
    (trees : TreeForm.ofEntries others = (TreeForm.ofEntries entries).map (·.naming otherId)) :
    PruneForm.ofEntries others =
      (PruneForm.ofEntries entries).map fun form =>
        { form with tree := form.tree.naming otherId } := by
  rw [PruneForm.ofEntries, PruneForm.ofEntries, trees, sameFields "branch_id" (by decide),
    sameFields "pruned_ids" (by decide)]
  generalize Checked.both (requiredField textField (fieldPlace "branch_id") _) _ = rest
  cases TreeForm.ofEntries entries <;> cases rest <;> rfl

theorem growForm_naming {otherId : Option String} (reads : form.ReadsFields entries)
    (given : entries.lookup "axiom" = some (.text start))
    (found : chosen form.speciesId = .ok species) (otherFound : chosen otherId = .ok other)
    (same : SameDefaults entries species other) :
    growForm (form.naming otherId) = growForm form := by
  have startRead := reads.start_of_text given
  have otherStart : (form.naming otherId).start = some start := startRead
  have otherPlan := Plan.ofForm_of_start otherStart otherFound
  have plan := Plan.ofForm_of_start startRead found
  have angles : (form.angle.map Value.real).getD other.defaultAngle =
      (form.angle.map Value.real).getD species.defaultAngle := by
    cases angle : form.angle with
    | none => exact same.angle ((optionalField_eq_none_iff reads.angle).mp angle)
    | some number => rfl
  have steps : (form.stepSize.map Value.real).getD other.defaultStep =
      (form.stepSize.map Value.real).getD species.defaultStep := by
    cases stepSize : form.stepSize with
    | none => exact same.stepSize ((optionalField_eq_none_iff reads.stepSize).mp stepSize)
    | some number => rfl
  rw [TreeForm.naming] at otherPlan ⊢
  rw [angles, steps] at otherPlan
  rw [growForm, growForm, otherPlan, plan]

/-! ## Responses -/

theorem respond_congr {content answer : Type} {ofEntries : List (String × Value) → Checked content}
    {act : content → Except Fault answer} {toValue : answer → Value} {change : content → content}
    (reads : ofEntries others = (ofEntries entries).map change)
    (acts : ∀ form, ofEntries entries = .ok form → act (change form) = act form) :
    respond ofEntries act toValue (some (.dict others)) =
      respond ofEntries act toValue (some (.dict entries)) := by
  simp only [respond, readForm, reads]
  cases read : ofEntries entries with
  | error complaints => rfl
  | ok form => simp only [Except.map, acts form read]

theorem respond_of_fails {content answer : Type} {cause : Fault}
    {ofEntries : List (String × Value) → Checked content} {act : content → Except Fault answer}
    {toValue : answer → Value}
    (fails : ∀ form, ofEntries entries = .ok form → act form = .error cause)
    (fits : ∀ complaints,
      respond ofEntries act toValue (some (.dict entries)) ≠ .rejected complaints) :
    respond ofEntries act toValue (some (.dict entries)) = ofFault cause := by
  simp only [respond, readForm] at fits ⊢
  cases read : ofEntries entries with
  | error complaints =>
      simp only [read] at fits
      exact absurd rfl (fits complaints)
  | ok form => simp only [fails form read]

section

variable (sameFields : ∀ name, name ≠ "species_id" → others.lookup name = entries.lookup name)
  (given : entries.lookup "axiom" = some (.text start))
  (named : speciesNamed? entries = some species) (otherNamed : speciesNamed? others = some other)

include sameFields given named otherNamed

theorem serve_naming (same : SameDefaults entries species other) (endpoint : Endpoint) :
    serve endpoint (some (.dict others)) = serve endpoint (some (.dict entries)) := by
  obtain ⟨speciesId, read, found⟩ := exists_speciesId named (fieldPlace "species_id")
  obtain ⟨otherId, otherRead, otherFound⟩ :=
    exists_speciesId otherNamed (fieldPlace "species_id")
  have trees := TreeForm.ofEntries_naming sameFields read otherRead
  have grows : ∀ form, TreeForm.ofEntries entries = .ok form →
      growForm (form.naming otherId) = growForm form := by
    intro form formRead
    have reads := TreeForm.readsFields formRead
    obtain rfl : speciesId = form.speciesId := Except.ok.inj (read.symm.trans reads.speciesId)
    exact growForm_naming reads given found otherFound same
  cases endpoint with
  | health | catalog | manual => rfl
  | tree =>
      refine respond_congr trees fun form formRead => ?_
      rw [answerTree, answerTree, grows form formRead]
  | prune =>
      refine respond_congr (PruneForm.ofEntries_naming sameFields trees) fun form formRead => ?_
      rw [answerPruning, answerPruning, grows form.tree (PruneForm.fields_of_ofEntries formRead).1]

end

/-! ## What an answer echoes -/

def echoedParameters? (document : Value) : Option Value :=
  ((document.get? "tree").getD document).get? "params"

theorem exists_plan_of_serve {endpoint : Endpoint} {document : Value}
    (withTree : endpoint = .tree ∨ endpoint = .prune)
    (answered : serve endpoint (some (.dict entries)) = .answer 200 document) :
    ∃ form plan, form.ReadsFields entries ∧ Plan.ofForm form = .ok plan ∧
      echoedParameters? document = some plan.toValue := by
  rcases withTree with rfl | rfl
  · obtain ⟨read, form, plan, tree, answer, isDict, formRead, grown, made, rfl⟩ :=
      exists_tree_of_serve answered
    cases isDict
    obtain ⟨count, -, rfl⟩ := map_eq_ok_iff.mp made
    exact ⟨form, plan, TreeForm.readsFields formRead, (growForm_eq_ok grown).1, rfl⟩
  · obtain ⟨read, form, plan, full, answer, isDict, formRead, grown, made, rfl⟩ :=
      exists_tree_of_serve_prune answered
    cases isDict
    obtain ⟨count, -, rfl⟩ := map_eq_ok_iff.mp made
    have treeRead := (PruneForm.fields_of_ofEntries formRead).1
    exact ⟨form.tree, plan, TreeForm.readsFields treeRead, (growForm_eq_ok grown).1, rfl⟩

/-- Where a document leaves the angle or the step to its species, the answer echoes the default. -/
theorem echoes_defaults {endpoint : Endpoint} {document : Value}
    (withTree : endpoint = .tree ∨ endpoint = .prune)
    (given : entries.lookup "axiom" = some (.text start))
    (named : speciesNamed? entries = some species)
    (answered : serve endpoint (some (.dict entries)) = .answer 200 document) :
    ((entries.lookup "angle").getD .null = .null →
        (echoedParameters? document).bind (·.get? "angle") = some species.defaultAngle) ∧
      ((entries.lookup "step_size").getD .null = .null →
        (echoedParameters? document).bind (·.get? "step_size") = some species.defaultStep) := by
  obtain ⟨form, plan, reads, planned, echo⟩ := exists_plan_of_serve withTree answered
  obtain ⟨speciesId, read, found⟩ := exists_speciesId named (fieldPlace "species_id")
  obtain rfl : speciesId = form.speciesId := Except.ok.inj (read.symm.trans reads.speciesId)
  cases planned.symm.trans (Plan.ofForm_of_start (reads.start_of_text given) found)
  rw [echo]
  constructor
  · intro omitted
    have none := (optionalField_eq_none_iff reads.angle).mpr omitted
    simp only [Plan.toValue, none]
    rfl
  · intro omitted
    have none := (optionalField_eq_none_iff reads.stepSize).mpr omitted
    simp only [Plan.toValue, none]
    rfl

/-! ## Species that are not in the catalog -/

theorem chosen_of_unknown {id : String} (field : entries.lookup "species_id" = some (.text id))
    (unknown : speciesNamed? entries = none) :
    chosen (some id) = .error (.unknownSpecies (.text id)) := by
  simp only [speciesNamed?, field] at unknown
  split at unknown
  · cases unknown
  · next nonempty =>
    rw [chosen_some nonempty, Catalog.species]
    simp only [unknown]

theorem growForm_of_unknown {id : String} (reads : form.ReadsFields entries)
    (field : entries.lookup "species_id" = some (.text id))
    (unknown : speciesNamed? entries = none) :
    growForm form = .error (.unknownSpecies (.text id)) := by
  have fieldRead := reads.speciesId
  rw [field] at fieldRead
  have named : some id = form.speciesId := Except.ok.inj fieldRead
  rw [growForm, Plan.ofForm_eq, ← named, chosen_of_unknown field unknown]
  rfl

theorem serve_of_unknown {endpoint : Endpoint} {id : String}
    (withTree : endpoint = .tree ∨ endpoint = .prune)
    (field : entries.lookup "species_id" = some (.text id))
    (unknown : speciesNamed? entries = none)
    (fits : ∀ complaints, serve endpoint (some (.dict entries)) ≠ .rejected complaints) :
    serve endpoint (some (.dict entries)) = detail 404 ("Unknown species: " ++ id) := by
  have notFound : ofFault (.unknownSpecies (.text id)) = detail 404 ("Unknown species: " ++ id) :=
    rfl
  rw [← notFound]
  rcases withTree with rfl | rfl
  · refine respond_of_fails (fun form formRead => ?_) fits
    rw [answerTree, growForm_of_unknown (TreeForm.readsFields formRead) field unknown]
  · refine respond_of_fails (fun form formRead => ?_) fits
    have treeRead := (PruneForm.fields_of_ofEntries formRead).1
    rw [answerPruning, growForm_of_unknown (TreeForm.readsFields treeRead) field unknown]

/-! ## What a species does beside a grammar of one's own -/

theorem handle_congr {body other : Option Value}
    (same : ∀ endpoint, serve endpoint other = serve endpoint body) (method target : String) :
    handle ⟨method, target, other⟩ = handle ⟨method, target, body⟩ := by
  unfold handle
  dsimp only
  cases Endpoint.ofPath? (Address.pathOf target) with
  | none => rfl
  | some endpoint =>
      dsimp only
      rw [same endpoint]

/-- Of two documents with the same grammar of their own that differ in nothing but the species: if
both species are found, the responses are the same where the defaults are that are left to the
species, and answers with a tree nowhere else. An unknown species is not found. -/
theorem handle_ownGrammar
    (sameFields : ∀ name, name ≠ "species_id" → others.lookup name = entries.lookup name)
    (given : entries.lookup "axiom" = some (.text start)) :
    (∀ species other, speciesNamed? entries = some species →
        speciesNamed? others = some other →
        (SameDefaults entries species other → ∀ method target,
          handle ⟨method, target, some (.dict others)⟩ =
            handle ⟨method, target, some (.dict entries)⟩) ∧
          ∀ endpoint document, endpoint = .tree ∨ endpoint = .prune →
            serve endpoint (some (.dict entries)) = .answer 200 document →
            serve endpoint (some (.dict others)) = .answer 200 document →
            SameDefaults entries species other) ∧
      ∀ endpoint id, endpoint = .tree ∨ endpoint = .prune →
        entries.lookup "species_id" = some (.text id) → speciesNamed? entries = none →
        (∀ complaints, serve endpoint (some (.dict entries)) ≠ .rejected complaints) →
        serve endpoint (some (.dict entries)) = detail 404 ("Unknown species: " ++ id) := by
  refine ⟨?_, fun _ _ withTree field unknown => serve_of_unknown withTree field unknown⟩
  intro species other named otherNamed
  constructor
  · intro same method target
    exact handle_congr (serve_naming sameFields given named otherNamed same) method target
  · intro endpoint document withTree answered otherAnswered
    have otherGiven : others.lookup "axiom" = some (.text start) :=
      (sameFields "axiom" (by decide)).trans given
    obtain ⟨angle, stepSize⟩ := echoes_defaults withTree given named answered
    obtain ⟨otherAngle, otherStep⟩ := echoes_defaults withTree otherGiven otherNamed otherAnswered
    rw [sameFields "angle" (by decide)] at otherAngle
    rw [sameFields "step_size" (by decide)] at otherStep
    constructor
    · intro omitted
      exact Option.some.inj ((otherAngle omitted).symm.trans (angle omitted))
    · intro omitted
      exact Option.some.inj ((otherStep omitted).symm.trans (stepSize omitted))

theorem lookup_beside (others : List (String × Value)) (species : Value) {name : String}
    (different : name ≠ "species_id") :
    List.lookup name (("species_id", species) :: others) = others.lookup name := by
  rw [List.lookup_cons, beq_eq_false_iff_ne.mpr different]

/-- A grammar of a single segment is named beside a species, or alone; angle and step are given. -/
theorem handle_ownGrammar_birch :
    let others : List (String × Value) :=
      [("axiom", .text "F"), ("angle", .real 30.0), ("step_size", .real 1.0)]
    let entries := ("species_id", .text "birch") :: others
    (∀ name, name ≠ "species_id" → others.lookup name = entries.lookup name) ∧
      entries.lookup "axiom" = some (.text "F") ∧
      handle ⟨"POST", "/api/tree", some (.dict others)⟩ =
        handle ⟨"POST", "/api/tree", some (.dict entries)⟩ := by
  intro others entries
  have sameFields : ∀ name, name ≠ "species_id" → others.lookup name = entries.lookup name :=
    fun name different => (lookup_beside others (.text "birch") different).symm
  have given : entries.lookup "axiom" = some (.text "F") := rfl
  have angle : entries.lookup "angle" = some (.real 30.0) := rfl
  have stepSize : entries.lookup "step_size" = some (.real 1.0) := rfl
  have same : SameDefaults entries Catalog.birch Catalog.standard := by
    constructor
    · rw [angle]
      exact nofun
    · rw [stepSize]
      exact nofun
  exact ⟨sameFields, given, ((handle_ownGrammar sameFields given).1 Catalog.birch Catalog.standard
    rfl rfl).1 same "POST" "/api/tree"⟩

theorem exists_serve_segment (speciesId : Option String) (named : Species) {radians length : Float}
    (read : TreeForm.ofEntries entries = .ok ⟨speciesId, some "F", ⟨[]⟩, 4, none, none⟩)
    (found : chosen speciesId = .ok named)
    (parameters : drawingParameters named.defaultAngle named.defaultStep =
      .ok (radians, length)) :
    ∃ document, serve .tree (some (.dict entries)) = .answer 200 document := by
  obtain ⟨tree, grows⟩ : ∃ tree, (Recipe.mk (.ofTexts "F" ⟨[]⟩) (.int 4) named.defaultAngle
      named.defaultStep).grow none = .ok tree :=
    ⟨_, (Recipe.grow_eq_of_le rfl "F" ⟨[]⟩ _ _ none (by decide) parameters).trans rfl⟩
  have plan : Plan.ofForm ⟨speciesId, some "F", ⟨[]⟩, 4, none, none⟩ =
      .ok ⟨.null, .ofTexts "F" ⟨[]⟩, 4, named.defaultAngle, named.defaultStep⟩ :=
    Plan.ofForm_of_start rfl found
  obtain ⟨answer, answered⟩ : ∃ answer,
      answerTree ⟨speciesId, some "F", ⟨[]⟩, 4, none, none⟩ = .ok answer := by
    rw [answerTree, growForm, plan]
    simp only [Plan.recipe, grows]
    exact ⟨_, rfl⟩
  have formRead : readForm TreeForm.ofEntries (some (.dict entries)) = _ := read
  exact ⟨_, respond_ok formRead answered⟩

/-- Beside a grammar of one's own, another species changes the angle that is left out, and an
unknown one spoils the response. -/
theorem handle_ownGrammar_differs :
    let plain : List (String × Value) := [("axiom", .text "F")]
    let ask (entries : List (String × Value)) : Response :=
      handle ⟨"POST", "/api/tree", some (.dict entries)⟩
    (∃ document other, document ≠ other ∧ ask plain = .answer 200 document ∧
        ask (("species_id", .text "birch") :: plain) = .answer 200 other) ∧
      ask (("species_id", .text "baobab") :: plain) = detail 404 "Unknown species: baobab" := by
  intro plain ask
  have located : Endpoint.ofPath? (Address.pathOf "/api/tree") = some .tree := by decide +kernel
  have allowed : Endpoint.tree.methods.contains "POST".toUpper = true := by decide +kernel
  have served : ∀ entries, ask entries = serve .tree (some (.dict entries)) :=
    fun entries => handle_of_found _ located allowed
  have birch : speciesNamed? (("species_id", .text "birch") :: plain) = some Catalog.birch := rfl
  obtain ⟨document, answered⟩ : ∃ document,
      serve .tree (some (.dict plain)) = .answer 200 document :=
    exists_serve_segment none Catalog.standard rfl rfl (drawingParameters_real rfl rfl)
  obtain ⟨other, otherAnswered⟩ : ∃ other,
      serve .tree (some (.dict (("species_id", .text "birch") :: plain))) = .answer 200 other :=
    exists_serve_segment (some "birch") Catalog.birch rfl rfl (drawingParameters_real rfl rfl)
  have angle := (echoes_defaults (.inl rfl) rfl rfl answered).1 rfl
  have otherAngle := (echoes_defaults (.inl rfl) rfl birch otherAnswered).1 rfl
  refine ⟨⟨document, other, ?_, (served _).trans answered, (served _).trans otherAnswered⟩, ?_⟩
  · rintro rfl
    have same : Value.real 22.5 = Value.real 20.0 :=
      Option.some.inj (angle.symm.trans otherAngle)
    have less : (20.0 : Float) < 22.5 := by decide +kernel
    rw [Value.real.inj same] at less
    exact absurd less (by decide +kernel)
  · have read : TreeForm.ofEntries (("species_id", .text "baobab") :: plain) =
        .ok ⟨some "baobab", some "F", ⟨[]⟩, 4, none, none⟩ := rfl
    have failed : answerTree ⟨some "baobab", some "F", ⟨[]⟩, 4, none, none⟩ =
        .error (.unknownSpecies (.text "baobab")) := by
      rw [answerTree, growForm_of_unknown (TreeForm.readsFields read) rfl rfl]
    rw [served]
    simp only [serve, respond, readForm, read, failed]
    rfl

end Topiary.Service
