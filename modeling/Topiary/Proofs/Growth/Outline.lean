import Topiary.Proofs.Drawing.Outline
import Topiary.Proofs.Growth.Guard

set_option autoImplicit false

/-!
# What grows from a recipe

A tree that grows from a recipe is drawn by the symbols of its expansion, whatever kind
of grammar this is. It is named like every drawn tree, and all but its coordinates is
settled by the symbols.
-/

namespace Topiary

namespace Recipe

def symbols (recipe : Recipe) : Except Fault (List Char) :=
  recipe.grammar.expansion recipe.iterations

variable {recipe other : Recipe} {limit otherLimit : Option Value} {tree otherTree : Branch Float}

/-- A tree that has grown was drawn by the symbols of its recipe, with the numbers that angle and
step give. -/
theorem exists_drawing_of_grow (grows : recipe.grow limit = .ok tree) :
    ∃ symbols radians length, recipe.symbols = .ok symbols ∧
      drawingParameters recipe.angle recipe.step = .ok (radians, length) ∧
      Shoot.tree radians length (Command.ofSymbols symbols) = .ok tree := by
  rw [grow] at grows
  cases counted : generations recipe.iterations with
  | error fault => simp [counted] at grows
  | ok count =>
      cases sized : recipe.grammar.lengthAfter count with
      | error fault => simp [counted, sized] at grows
      | ok size =>
          cases checked : checkLength size count (limit.getD standardLimit) with
          | error fault => simp [counted, sized, checked] at grows
          | ok passed =>
              cases written : recipe.grammar.symbolsAfter count with
              | error fault => simp [counted, sized, checked, written] at grows
              | ok symbols =>
                  simp only [counted, sized, checked, written] at grows
                  cases parameters : drawingParameters recipe.angle recipe.step with
                  | error fault => simp [drawTree, parameters] at grows
                  | ok numbers =>
                      obtain ⟨radians, length⟩ := numbers
                      rw [drawTree_eq _ parameters] at grows
                      refine ⟨symbols, radians, length, ?_, rfl, grows⟩
                      rw [Recipe.symbols, Grammar.expansion, counted]
                      exact written

theorem exists_int_of_grow (grows : recipe.grow limit = .ok tree) :
    ∃ count, recipe.iterations = .int count := by
  obtain ⟨symbols, -, -, written, -, -⟩ := exists_drawing_of_grow grows
  rw [Recipe.symbols, Grammar.expansion] at written
  cases iterations : recipe.iterations with
  | int count => exact ⟨count, rfl⟩
  | null | bool _ | real _ | text _ | list _ | dict _ =>
      simp [iterations, generations] at written

theorem exists_shoot_of_grow (grows : recipe.grow limit = .ok tree) :
    ∃ shoot : Shoot Float, shoot.Sound ∧ shoot.spine.toBranch = tree := by
  obtain ⟨symbols, radians, length, -, -, drawn⟩ := exists_drawing_of_grow grows
  obtain ⟨shoot, obeyed, same⟩ := map_eq_ok_iff.mp drawn
  exact ⟨shoot, Shoot.Sound.initial.obeyAll obeyed, same⟩

theorem distinctIds_of_grow (grows : recipe.grow limit = .ok tree) : tree.DistinctIds := by
  obtain ⟨shoot, sound, rfl⟩ := exists_shoot_of_grow grows
  exact sound.named.distinctIds

theorem id_of_grow (grows : recipe.grow limit = .ok tree) : tree.id = rootId := by
  obtain ⟨shoot, sound, rfl⟩ := exists_shoot_of_grow grows
  rw [Branch.id, sound.top]
  rfl

/-! ## Outlines -/

/-- The tree that the symbols of a recipe draw without coordinates. -/
def outline (recipe : Recipe) : Except Fault (Branch Blank) :=
  match recipe.symbols with
  | .error fault => .error fault
  | .ok symbols => Shoot.tree ⟨⟩ ⟨⟩ (Command.ofSymbols symbols)

theorem outline_of_grow (grows : recipe.grow limit = .ok tree) :
    recipe.outline = .ok tree.outline := by
  obtain ⟨symbols, radians, length, written, -, drawn⟩ := exists_drawing_of_grow grows
  rw [outline, written]
  exact Shoot.tree_outline drawn

theorem outline_congr (sameSymbols : recipe.symbols = other.symbols) :
    recipe.outline = other.outline := by
  rw [outline, outline, sameSymbols]

end Recipe

end Topiary
