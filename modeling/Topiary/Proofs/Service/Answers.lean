import Topiary.Proofs.Growth.Agreement
import Topiary.Proofs.Service.Fields
import Topiary.Proofs.Session.Pruning
import Topiary.Service.Basic

set_option autoImplicit false

/-!
# What is behind an answer

An answer with a tree can only come about in one way: the document of the request was read as
a form, the form became a plan, and from the plan a tree has grown.
-/

namespace Topiary.Service

/-! ## Forms that have been read -/

theorem Checked.both_eq_ok {σ τ : Type} {first : Checked σ} {second : Checked τ} {left : σ}
    {right : τ} (read : first.both second = .ok (left, right)) :
    first = .ok left ∧ second = .ok right := by
  cases first with
  | ok _ =>
      cases second with
      | ok _ =>
          cases read
          exact ⟨rfl, rfl⟩
      | error complaints => cases read
  | error complaints => cases second <;> cases read

/-- Each field of a form has been read from its own place in the document. -/
structure TreeForm.ReadsFields (form : TreeForm) (entries : List (String × Value)) : Prop where
  speciesId : optionalField textField (fieldPlace "species_id") (entries.lookup "species_id") =
    .ok form.speciesId
  start : optionalField textField (fieldPlace "axiom") (entries.lookup "axiom") = .ok form.start
  rules : fieldOr rulesField (fieldPlace "rules") (entries.lookup "rules") ⟨[]⟩ = .ok form.rules
  iterations : fieldOr iterationsField (fieldPlace "iterations") (entries.lookup "iterations")
    Settings.standard.defaultIterations = .ok form.iterations
  angle : optionalField (boundedReal Settings.standard.angleRange) (fieldPlace "angle")
    (entries.lookup "angle") = .ok form.angle
  stepSize : optionalField (boundedReal Settings.standard.stepRange) (fieldPlace "step_size")
    (entries.lookup "step_size") = .ok form.stepSize

theorem TreeForm.readsFields {entries : List (String × Value)} {form : TreeForm}
    (read : TreeForm.ofEntries entries = .ok form) : form.ReadsFields entries := by
  rw [ofEntries] at read
  obtain ⟨⟨speciesId, start, rules, iterations, angle, stepSize⟩, fields, rfl⟩ :=
    map_eq_ok_iff.mp read
  obtain ⟨speciesRead, fields⟩ := Checked.both_eq_ok fields
  obtain ⟨startRead, fields⟩ := Checked.both_eq_ok fields
  obtain ⟨rulesRead, fields⟩ := Checked.both_eq_ok fields
  obtain ⟨iterationsRead, fields⟩ := Checked.both_eq_ok fields
  obtain ⟨angleRead, stepRead⟩ := Checked.both_eq_ok fields
  exact ⟨speciesRead, startRead, rulesRead, iterationsRead, angleRead, stepRead⟩

theorem PruneForm.fields_of_ofEntries {entries : List (String × Value)} {form : PruneForm}
    (read : PruneForm.ofEntries entries = .ok form) :
    TreeForm.ofEntries entries = .ok form.tree ∧
      requiredField textField (fieldPlace "branch_id") (entries.lookup "branch_id") =
        .ok form.branchId ∧
      fieldOr textsField (fieldPlace "pruned_ids") (entries.lookup "pruned_ids") [] =
        .ok form.prunedIds := by
  rw [ofEntries] at read
  obtain ⟨⟨tree, branchId, prunedIds⟩, fields, rfl⟩ := map_eq_ok_iff.mp read
  obtain ⟨treeRead, fields⟩ := Checked.both_eq_ok fields
  exact ⟨treeRead, Checked.both_eq_ok fields⟩

theorem Checked.eq_of_all {σ : Type} {fields : List (Checked σ)} {contents : List σ}
    (read : Checked.all fields = .ok contents) : fields = contents.map .ok := by
  induction fields generalizing contents with
  | nil =>
      cases read
      rfl
  | cons field rest ih =>
      rw [Checked.all] at read
      obtain ⟨⟨content, others⟩, both, rfl⟩ := map_eq_ok_iff.mp read
      obtain ⟨rfl, restRead⟩ := Checked.both_eq_ok both
      rw [List.map_cons, ← ih restRead]

theorem exists_text_of_textsField {place : List Step} {items : List Value}
    {contents : List String} (read : textsField place (.list items) = .ok contents)
    {item : Value} (member : item ∈ items) : ∃ content ∈ contents, item = .text content := by
  have fields := Checked.eq_of_all read
  rw [← items.zipIdx_map_fst 0, List.mem_map] at member
  obtain ⟨⟨item, index⟩, indexed, rfl⟩ := member
  have field : textField (place ++ [.position index]) item ∈ contents.map Except.ok := by
    rw [← fields]
    exact List.mem_map.mpr ⟨(item, index), indexed, rfl⟩
  obtain ⟨content, listed, same⟩ := List.mem_map.mp field
  refine ⟨content, listed, ?_⟩
  cases item with
  | text given => rw [Except.ok.inj same]
  | null | bool _ | int _ | real _ | list _ | dict _ => cases same

/-! ## Answers that have been given -/

section

variable {form answer : Type} {ofEntries : List (String × Value) → Checked form}
  {act : form → Except Fault answer} {toValue : answer → Value} {body : Option Value}
  {document : Value}

theorem exists_entries_of_readForm {content : form} (read : readForm ofEntries body = .ok content) :
    ∃ entries, body = some (.dict entries) ∧ ofEntries entries = .ok content := by
  rw [readForm.eq_def] at read
  split at read
  · cases read
  · cases read
  · exact ⟨_, rfl, read⟩
  · cases read

theorem ofFault_ne_answer (fault : Fault) (document : Value) :
    ofFault fault ≠ .answer 200 document := by
  cases fault <;> simp [ofFault, detail]

theorem respond_eq_answer
    (answered : respond ofEntries act toValue body = .answer 200 document) :
    ∃ content outcome, readForm ofEntries body = .ok content ∧ act content = .ok outcome ∧
      document = toValue outcome := by
  rw [respond] at answered
  split at answered
  · cases answered
  · next content read =>
    split at answered
    · next outcome acted =>
      cases answered
      exact ⟨content, outcome, read, acted, rfl⟩
    · exact absurd answered (ofFault_ne_answer _ _)

end

theorem serve_of_handle {request : Request} {endpoint : Endpoint} {document : Value}
    (found : Endpoint.ofPath? (Address.pathOf request.target) = some endpoint)
    (answered : handle request = .answer 200 document) :
    serve endpoint request.body = .answer 200 document := by
  unfold handle at answered
  rw [found] at answered
  dsimp only at answered
  split at answered
  · exact answered
  · simp [detail] at answered

/-! ## Plans -/

def chosen (speciesId : Option String) : Except Fault Species :=
  match speciesId with
  | none | some "" => .ok Catalog.standard
  | some id => Catalog.species (.text id)

theorem chosen_some {id : String} (nonempty : id ≠ "") :
    chosen (some id) = Catalog.species (.text id) := by
  rw [chosen.eq_def]
  split
  · next none => cases none
  · next empty => exact absurd (Option.some.inj empty) nonempty
  · next same => rw [Option.some.inj same]

theorem mem_all_of_chosen {speciesId : Option String} {species : Species}
    (found : chosen speciesId = .ok species) : species ∈ Catalog.all := by
  rw [chosen.eq_def] at found
  split at found
  · cases found
    exact List.mem_cons_self
  · cases found
    exact List.mem_cons_self
  · next id _ =>
    rw [Catalog.species] at found
    cases listed : Catalog.find? id with
    | none => simp [listed] at found
    | some other =>
        simp only [listed] at found
        cases found
        exact List.mem_of_find?_eq_some listed

theorem Plan.ofForm_eq (form : TreeForm) :
    Plan.ofForm form = (chosen form.speciesId).map fun species =>
      { speciesId := if form.start.isSome then .null else species.id
        grammar := match form.start with
          | some start => .ofTexts start form.rules
          | none => species.grammar
        iterations := form.iterations
        angle := (form.angle.map Value.real).getD species.defaultAngle
        stepSize := (form.stepSize.map Value.real).getD species.defaultStep } :=
  rfl

/-- A tree grows from texts: the grammars of the catalog have no others. -/
theorem Plan.isTexts_of_ofForm {form : TreeForm} {plan : Plan}
    (planned : Plan.ofForm form = .ok plan) : plan.grammar.IsTexts := by
  have catalog : ∀ species ∈ Catalog.all, species.grammar.IsTexts := by
    simp only [Catalog.all, List.forall_mem_cons]
    exact ⟨⟨_, _, rfl⟩, ⟨_, _, rfl⟩, ⟨_, _, rfl⟩, ⟨_, _, rfl⟩, ⟨_, _, rfl⟩, List.forall_mem_nil _⟩
  rw [ofForm_eq] at planned
  obtain ⟨species, found, rfl⟩ := map_eq_ok_iff.mp planned
  cases given : form.start with
  | some start => exact ⟨start, form.rules, rfl⟩
  | none => exact catalog species (mem_all_of_chosen found)

/-! ## Trees that have grown -/

variable {form : TreeForm} {plan : Plan} {tree : Branch Float} {body : Option Value}
  {document : Value}

theorem growForm_eq_ok (grown : growForm form = .ok (plan, tree)) :
    Plan.ofForm form = .ok plan ∧ plan.recipe.grow none = .ok tree := by
  rw [growForm] at grown
  cases planned : Plan.ofForm form with
  | error fault => simp [planned] at grown
  | ok filled =>
      simp only [planned] at grown
      obtain ⟨full, grows, same⟩ := map_eq_ok_iff.mp grown
      cases same
      exact ⟨rfl, grows⟩

theorem exists_tree_of_serve (answered : serve .tree body = .answer 200 document) :
    ∃ entries form plan tree answer, body = some (.dict entries) ∧
      TreeForm.ofEntries entries = .ok form ∧ growForm form = .ok (plan, tree) ∧
      TreeAnswer.ofTree tree plan = .ok answer ∧ document = answer.toValue := by
  obtain ⟨form, answer, read, acted, rfl⟩ := respond_eq_answer answered
  obtain ⟨entries, isDict, formRead⟩ := exists_entries_of_readForm read
  rw [answerTree] at acted
  cases grown : growForm form with
  | error fault => simp [grown] at acted
  | ok pair =>
      obtain ⟨plan, tree⟩ := pair
      simp only [grown] at acted
      exact ⟨entries, form, plan, tree, answer, isDict, formRead, grown, acted, rfl⟩

theorem exists_tree_of_serve_prune (answered : serve .prune body = .answer 200 document) :
    ∃ entries form plan full answer, body = some (.dict entries) ∧
      PruneForm.ofEntries entries = .ok form ∧ growForm form.tree = .ok (plan, full) ∧
      let removed := full.takenFrom form.branchId
      let gone := IdSet.ofIds form.prunedIds ∪ removed
      TreeAnswer.ofTree (full.without gone) plan = .ok answer ∧
        document = PruneAnswer.toValue ⟨removed.toList, gone.toList,
          Comparison.ofTrees full (full.without gone), answer⟩ := by
  obtain ⟨form, outcome, read, acted, rfl⟩ := respond_eq_answer answered
  obtain ⟨entries, isDict, formRead⟩ := exists_entries_of_readForm read
  rw [answerPruning] at acted
  cases grown : growForm form.tree with
  | error fault => simp [grown] at acted
  | ok pair =>
      obtain ⟨plan, full⟩ := pair
      simp only [grown] at acted
      obtain ⟨answer, made, rfl⟩ := map_eq_ok_iff.mp acted
      exact ⟨entries, form, plan, full, answer, isDict, formRead, grown, made, rfl⟩

end Topiary.Service
