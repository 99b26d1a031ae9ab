import Topiary.Proofs.Growth.Guard
import Topiary.Proofs.Value.Agreement
import Topiary.Session.Operation

set_option autoImplicit false

/-!
# The kept tree

A session keeps the tree that it grew last, together with the recipe of that tree. A request
for the full tree either fails because the recipe has no key, or shows the kept tree, or
grows another one in its place; no other step touches what is kept.
-/

namespace Topiary

namespace Recipe

theorem agrees_trans {left middle right : Recipe} (first : left.agrees middle = true)
    (second : middle.agrees right = true) : left.agrees right = true := by
  rw [agrees] at first second ⊢
  cases leftKey : left.key with
  | error fault => simp [leftKey] at first
  | ok leftKey =>
      cases middleKey : middle.key with
      | error fault => simp [middleKey] at second
      | ok middleKey =>
          cases rightKey : right.key with
          | error fault => simp [rightKey] at second
          | ok rightKey =>
              simp only [*] at first second ⊢
              exact Value.agreesWith_trans first second

theorem key_of_agrees {left right : Recipe} (agree : left.agrees right = true) :
    ∃ key, right.key = .ok key := by
  rw [agrees] at agree
  split at agree
  · next rightKey => exact ⟨_, rightKey⟩
  · cases agree

end Recipe

namespace Session

variable {Record : Type} {session between next : Session Record} {grown : GrownTree}

/-! ## Showing the full tree -/

theorem wholeTree_cases (session : Session Record) :
    (∃ fault, session.recipe.key = .error fault ∧ session.wholeTree = .error fault) ∨
      (∃ kept, session.grown = some kept ∧ kept.recipe.agrees session.recipe = true ∧
        session.wholeTree = .ok (kept, session)) ∨
      ((∀ kept, session.grown = some kept → kept.recipe.agrees session.recipe = false) ∧
        session.wholeTree = session.regrow) := by
  rw [wholeTree]
  cases keyed : session.recipe.key with
  | error fault => exact .inl ⟨fault, rfl, rfl⟩
  | ok key =>
      cases held : session.grown with
      | none => exact .inr (.inr ⟨nofun, rfl⟩)
      | some kept =>
          by_cases agree : kept.recipe.agrees session.recipe = true
          · exact .inr (.inl ⟨kept, rfl, agree, if_pos agree⟩)
          · refine .inr (.inr ⟨?_, if_neg agree⟩)
            rintro _ ⟨⟩
            exact Bool.eq_false_of_not_eq_true agree

/-- A tree that is shown was kept for an equal recipe, or has just grown from the present one
because the kept one was not. -/
theorem shown_cases (whole : session.wholeTree = .ok (grown, next)) :
    (session.grown = some grown ∧ grown.recipe.agrees session.recipe = true ∧ next = session) ∨
      (∀ kept, session.grown = some kept → kept.recipe.agrees session.recipe = false) ∧
        grown.recipe = session.recipe ∧ grown.number = session.growths ∧
        session.recipe.grow none = .ok grown.tree ∧
        next = { session with grown := some grown, growths := session.growths + 1 } := by
  obtain ⟨fault, -, failed⟩ | ⟨kept, held, agree, hit⟩ | ⟨differs, miss⟩ := session.wholeTree_cases
  · nomatch failed.symm.trans whole
  · cases hit.symm.trans whole
    exact .inl ⟨held, agree, rfl⟩
  · rw [miss, regrow] at whole
    cases grows : session.recipe.grow none with
    | error fault => simp [grows] at whole
    | ok tree =>
        simp only [grows] at whole
        cases whole
        exact .inr ⟨differs, rfl, rfl, rfl, rfl⟩

theorem grown_of_wholeTree (whole : session.wholeTree = .ok (grown, next)) :
    next.grown = some grown := by
  obtain ⟨held, -, rfl⟩ | ⟨-, -, -, -, rfl⟩ := shown_cases whole
  · exact held
  · rfl

theorem exists_wholeTree {key : Value} {tree : Branch Float}
    (keyed : session.recipe.key = .ok key) (grows : session.recipe.grow none = .ok tree) :
    ∃ grown between, session.wholeTree = .ok (grown, between) := by
  obtain ⟨fault, keyless, -⟩ | ⟨kept, -, -, hit⟩ | ⟨-, miss⟩ := session.wholeTree_cases
  · nomatch keyless.symm.trans keyed
  · exact ⟨_, _, hit⟩
  · rw [regrow, grows] at miss
    exact ⟨_, _, miss⟩

theorem exists_wholeTree_again (whole : session.wholeTree = .ok (grown, next)) :
    ∃ again last, next.wholeTree = .ok (again, last) := by
  obtain ⟨-, -, rfl⟩ | ⟨-, -, -, grows, rfl⟩ := shown_cases whole
  · exact ⟨_, _, whole⟩
  · cases keyed : session.recipe.key with
    | error fault => simp [wholeTree, keyed] at whole
    | ok key => exact exists_wholeTree keyed grows

theorem exists_error_wholeTree {fault : Fault}
    (differs : ∀ kept, session.grown = some kept → kept.recipe.agrees session.recipe = false)
    (refused : session.recipe.grow none = .error fault) :
    ∃ cause, session.wholeTree = .error cause := by
  obtain ⟨cause, -, failed⟩ | ⟨kept, held, agree, -⟩ | ⟨-, miss⟩ := session.wholeTree_cases
  · exact ⟨cause, failed⟩
  · nomatch (differs kept held).symm.trans agree
  · rw [regrow, refused] at miss
    exact ⟨fault, miss⟩

/-- A tree that is shown was grown for the present recipe or for an equal one. -/
theorem agrees_of_wholeTree {recipe : Recipe} (whole : session.wholeTree = .ok (grown, next))
    (agree : session.recipe.agrees recipe = true) : grown.recipe.agrees recipe = true := by
  obtain ⟨-, hit, -⟩ | ⟨-, miss, -⟩ := shown_cases whole
  · exact Recipe.agrees_trans hit agree
  · rwa [miss]

theorem wholeTree_of_agrees {later : Session Record}
    (whole : session.wholeTree = .ok (grown, next)) (stays : later.grown = some grown)
    (sameAgain : session.recipe.agrees later.recipe = true) :
    later.wholeTree = .ok (grown, later) := by
  have agree := agrees_of_wholeTree whole sameAgain
  obtain ⟨key, keyed⟩ := Recipe.key_of_agrees agree
  rw [wholeTree, keyed, stays]
  exact if_pos agree

/-- Two sessions that differ at most in the tree they keep. -/
def Mirrors (session next : Session Record) : Prop :=
  next = { session with grown := next.grown, growths := next.growths }

namespace Mirrors

theorem refl (session : Session Record) : session.Mirrors session :=
  rfl

theorem trans (first : session.Mirrors between) (second : between.Mirrors next) :
    session.Mirrors next := by
  rw [Mirrors] at first second ⊢
  rw [second, first]

theorem recipe (mirrors : session.Mirrors next) : next.recipe = session.recipe := by
  rw [mirrors]
  rfl

end Mirrors

theorem mirrors_wholeTree (whole : session.wholeTree = .ok (grown, next)) :
    session.Mirrors next := by
  obtain ⟨-, -, rfl⟩ | ⟨-, -, -, -, rfl⟩ := shown_cases whole
  · exact .refl _
  · rfl

/-! ## What can happen to the kept tree -/

/-- What an operation does with the kept tree: it leaves it alone, or keeps another one that was
grown for the recipe of the session because the recipe of the kept tree differs from it. -/
inductive Tends (session next : Session Record) : Prop where
  | leaves (grown : next.grown = session.grown) (growths : next.growths = session.growths)
  | regrows {tree : Branch Float} {number : Nat}
      (differs : ∀ kept, session.grown = some kept →
        kept.recipe.agrees session.recipe = false)
      (grows : session.recipe.grow none = .ok tree)
      (fresh : session.growths ≤ number)
      (grown : next.grown = some ⟨session.recipe, tree, number⟩)
      (growths : next.growths = number + 1)

namespace Tends

theorem refl (session : Session Record) : Tends session session :=
  .leaves rfl rfl

theorem trans (first : Tends session between) (sameRecipe : between.recipe = session.recipe)
    (second : Tends between next) : Tends session next := by
  cases second with
  | leaves grown growths =>
      cases first with
      | leaves grownBefore growthsBefore =>
          exact .leaves (grown.trans grownBefore) (growths.trans growthsBefore)
      | regrows differs grows fresh grownBefore growthsBefore =>
          exact .regrows differs grows fresh (grown.trans grownBefore)
            (growths.trans growthsBefore)
  | regrows differs grows fresh grown growths =>
      rw [sameRecipe] at differs grows grown
      cases first with
      | leaves grownBefore growthsBefore =>
          rw [grownBefore] at differs
          rw [growthsBefore] at fresh
          exact .regrows differs grows fresh grown growths
      | regrows differsBefore _ freshBefore _ growthsBefore =>
          exact .regrows differsBefore grows (by omega) grown growths

end Tends

theorem tends_wholeTree (whole : session.wholeTree = .ok (grown, next)) : Tends session next := by
  obtain ⟨-, -, rfl⟩ | ⟨differs, sameRecipe, sameNumber, grows, rfl⟩ := shown_cases whole
  · exact .refl _
  · refine .regrows differs grows le_rfl ?_ rfl
    rw [← sameRecipe, ← sameNumber]

/-! ## The kept tree is right -/

/-- The kept tree is what its recipe grows, and its number has been given out. -/
structure Coherent (session : Session Record) : Prop where
  grows : ∀ kept, session.grown = some kept → kept.recipe.grow none = .ok kept.tree
  numbered : ∀ kept, session.grown = some kept → kept.number < session.growths

namespace Coherent

theorem of_fresh (fresh : session.grown = none) : session.Coherent where
  grows _ held := nomatch fresh.symm.trans held
  numbered _ held := nomatch fresh.symm.trans held

theorem of_tends (coherent : session.Coherent) (tends : Tends session next) :
    next.Coherent := by
  cases tends with
  | leaves grown growths =>
      constructor
      · intro kept held
        exact coherent.grows kept (grown.symm.trans held)
      · intro kept held
        rw [growths]
        exact coherent.numbered kept (grown.symm.trans held)
  | regrows _ grows _ grown growths =>
      constructor
      · intro kept held
        cases grown.symm.trans held
        exact grows
      · intro kept held
        cases grown.symm.trans held
        rw [growths]
        exact Nat.lt_succ_self _

theorem grows_of_wholeTree (coherent : session.Coherent)
    (whole : session.wholeTree = .ok (grown, next)) :
    grown.recipe.grow none = .ok grown.tree :=
  (coherent.of_tends (tends_wholeTree whole)).grows grown (grown_of_wholeTree whole)

/-- The full tree is shown again as long as the recipe is the same and the tree is kept. -/
theorem wholeTree_again (coherent : session.Coherent)
    (whole : session.wholeTree = .ok (grown, between)) (sameRecipe : next.recipe = session.recipe)
    (held : next.grown = some grown) :
    ∃ again last, next.wholeTree = .ok (again, last) ∧ again.tree = grown.tree := by
  obtain ⟨fault, keyless, -⟩ | ⟨kept, nextHeld, -, hit⟩ | ⟨differs, miss⟩ := next.wholeTree_cases
  · rw [sameRecipe] at keyless
    rw [wholeTree, keyless] at whole
    cases whole
  · cases held.symm.trans nextHeld
    exact ⟨grown, next, hit, rfl⟩
  · -- A tree may differ from its own recipe in a non-number; then it is grown once more.
    obtain ⟨-, agree, -⟩ | ⟨-, ownRecipe, -⟩ := shown_cases whole
    · rw [← sameRecipe, differs grown held] at agree
      cases agree
    · have grows := coherent.grows_of_wholeTree whole
      rw [ownRecipe, ← sameRecipe] at grows
      rw [regrow, grows] at miss
      exact ⟨_, _, miss, rfl⟩

end Coherent

end Session

end Topiary
