import Topiary.Proofs.Growth.Agreement
import Topiary.Proofs.Session.Steps

set_option autoImplicit false

/-!
# What is shown was grown for the present text

A kept tree is shown for every recipe that is the same as its own. As long as species are
chosen among grammars of texts, its symbols are those of the present recipe then, and all
of it but the coordinates is what the present recipe grows.
-/

namespace Topiary.Session

/-- The kept tree has grown for grammars that can be compared and for whole iterations. -/
structure Faithful (session : Session) : Prop where
  coherent : session.Coherent
  comparable : ∀ kept, session.grown = some kept →
    kept.recipe.grammar.Comparable session.species.grammar
  counted : ∀ kept, session.grown = some kept → ∃ count, session.iterations = .int count

/-- Species are changed only between grammars of texts. -/
def KeepsToTexts (session : Session) (operations : List Operation) : Prop :=
  ∀ species, .choose species ∈ operations →
    session.species.grammar.IsTexts ∧ species.grammar.IsTexts

theorem KeepsToTexts.of_cons {session : Session} {operation : Operation}
    {rest : List Operation} (texts : session.KeepsToTexts (operation :: rest)) :
    (session.after operation).KeepsToTexts rest := by
  intro species member
  obtain ⟨sessionTexts, speciesTexts⟩ := texts species (List.mem_cons_of_mem _ member)
  refine ⟨?_, speciesTexts⟩
  rcases effect_after session operation with unchanged | effect
  · rwa [unchanged]
  · rcases effect.species_cases with ⟨other, rfl, chosen⟩ | ⟨same, -⟩
    · rw [chosen]
      exact (texts other List.mem_cons_self).2
    · rwa [same]

theorem KeepsToTexts.of_append {session : Session} {earlier later : List Operation}
    (texts : session.KeepsToTexts (earlier ++ later)) :
    (session.afterAll earlier).KeepsToTexts later := by
  induction earlier generalizing session with
  | nil => exact texts
  | cons operation rest ih => exact ih texts.of_cons

namespace Faithful

variable {session next between : Session} {operation : Operation} {grown : GrownTree}

theorem of_fresh (fresh : session.grown = none) : session.Faithful where
  coherent := .of_fresh fresh
  comparable _ held := nomatch fresh.symm.trans held
  counted _ held := nomatch fresh.symm.trans held

theorem after {rest : List Operation} (faithful : session.Faithful)
    (texts : session.KeepsToTexts (operation :: rest)) : (session.after operation).Faithful := by
  have tends := tends_after session operation
  have coherent := faithful.coherent.of_tends tends
  rcases effect_after session operation with unchanged | effect
  · rwa [unchanged]
  generalize session.after operation = next at tends coherent effect ⊢
  rcases effect.species_cases with ⟨species, rfl, rfl⟩ | ⟨sameSpecies, iterations, -⟩
  · obtain ⟨sessionTexts, speciesTexts⟩ := texts species List.mem_cons_self
    refine ⟨coherent, ?_, faithful.counted⟩
    intro kept held
    exact .inr ⟨(faithful.comparable kept held).isTexts sessionTexts, speciesTexts⟩
  · have counted : (∃ count, session.iterations = .int count) →
        ∃ count, next.iterations = .int count := by
      intro before
      rcases iterations with same | counted
      · rwa [same]
      · exact counted
    cases tends with
    | leaves grown growths =>
        refine ⟨coherent, ?_, ?_⟩
        · intro kept held
          rw [sameSpecies]
          exact faithful.comparable kept (grown.symm.trans held)
        · intro kept held
          exact counted (faithful.counted kept (grown.symm.trans held))
    | regrows differs grows fresh grown growths =>
        refine ⟨coherent, ?_, ?_⟩
        · intro kept held
          cases grown.symm.trans held
          rw [sameSpecies]
          exact .refl _
        · intro kept held
          exact counted (Recipe.exists_int_of_grow grows)

theorem afterAll (faithful : session.Faithful) {operations : List Operation}
    (texts : session.KeepsToTexts operations) : (session.afterAll operations).Faithful := by
  induction operations generalizing session with
  | nil => exact faithful
  | cons operation rest ih => exact ih (faithful.after texts) texts.of_cons

/-- The symbols of the tree that is shown are those of the present recipe. -/
theorem expandsLike_of_wholeTree (faithful : session.Faithful)
    (whole : session.wholeTree = .ok (grown, between)) :
    grown.recipe.grammar.ExpandsLike session.recipe.grammar ∧
      grown.recipe.iterations = session.recipe.iterations := by
  obtain ⟨held, agree, -⟩ | ⟨-, sameRecipe, -⟩ := shown_cases whole
  · refine ⟨Recipe.expandsLike_of_agrees agree (faithful.comparable grown held), ?_⟩
    obtain ⟨keptCount, keptIterations⟩ :=
      Recipe.exists_int_of_grow (faithful.coherent.grows grown held)
    obtain ⟨count, iterations⟩ := faithful.counted grown held
    obtain ⟨-, -, -, -, -, -, iterationsAgree, -, -⟩ := Recipe.parts_of_agrees agree
    have sessionIterations : session.recipe.iterations = .int count := iterations
    rw [keptIterations, sessionIterations, Value.agreesWith_int_iff] at iterationsAgree
    rw [keptIterations, sessionIterations, iterationsAgree]
  · rw [sameRecipe]
    exact ⟨fun _ => ⟨rfl, rfl⟩, rfl⟩

theorem outline_of_wholeTree (faithful : session.Faithful)
    (whole : session.wholeTree = .ok (grown, between)) :
    session.recipe.outline = .ok grown.tree.outline := by
  obtain ⟨alike, sameIterations⟩ := faithful.expandsLike_of_wholeTree whole
  rw [← Recipe.outline_congr (Recipe.symbols_congr alike sameIterations)]
  exact Recipe.outline_of_grow (faithful.coherent.grows_of_wholeTree whole)

theorem idsFrom_of_wholeTree {outline : Branch Blank} (faithful : session.Faithful)
    (whole : session.wholeTree = .ok (grown, between))
    (outlined : session.recipe.outline = .ok outline) (id : String) :
    grown.tree.idsFrom id = outline.idsFrom id := by
  rw [faithful.outline_of_wholeTree whole, Except.ok.injEq] at outlined
  rw [← outlined]
  exact (Branch.idsFrom_map _ grown.tree id).symm

end Faithful

end Topiary.Session
