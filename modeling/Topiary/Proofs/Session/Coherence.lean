import Topiary.Proofs.Growth.Agreement
import Topiary.Proofs.Session.Exactness

set_option autoImplicit false

/-!
# The kept tree over a run

Whatever is done in between, and wherever it fails, the kept tree is what its recipe grows,
and it is shown again as long as no tree was grown for a recipe that differs from the
present one. A recipe whose rules cannot be put in order has no key to compare: then no tree
is shown, even if the recipe would grow one.
-/

namespace Topiary

namespace Session

variable {session next : Session GivenRecord} {kept : GrownTree} {operations : List Operation}

theorem Coherent.enactAll (coherent : session.Coherent) (operations : List Operation) :
    (session.enactAll operations).Coherent := by
  induction operations generalizing session with
  | nil => exact coherent
  | cons operation rest ih => exact ih (coherent.of_tends (tends_afterEnact session operation))

/-- The recipes for which trees are grown anew in the course of operations. -/
def recipesGrown (session : Session GivenRecord) : List Operation → List Recipe
  | [] => []
  | operation :: rest =>
    let next := session.afterEnact operation
    if next.growths = session.growths then next.recipesGrown rest
    else session.recipe :: next.recipesGrown rest

/-- A tree that is kept stays while trees are grown anew for its own recipe only. -/
theorem grown_enactAll (held : session.grown = some kept)
    (sameRecipes : ∀ recipe ∈ session.recipesGrown operations,
      kept.recipe.agrees recipe = true) :
    (session.enactAll operations).grown = some kept := by
  induction operations generalizing session with
  | nil => exact held
  | cons operation rest ih =>
      rw [recipesGrown] at sameRecipes
      cases tends_afterEnact session operation with
      | leaves grown growths =>
          rw [if_pos growths] at sameRecipes
          exact ih (grown.trans held) sameRecipes
      | regrows differs _ fresh _ growths =>
          -- A tree is only grown anew for a recipe that differs from the one of the kept tree.
          rw [if_neg (by omega)] at sameRecipes
          have agree := sameRecipes session.recipe List.mem_cons_self
          rw [differs kept held] at agree
          cases agree

end Session

end Topiary
