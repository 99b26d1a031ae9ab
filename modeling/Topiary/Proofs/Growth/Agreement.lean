import Topiary.Proofs.Grammar.Agreement
import Topiary.Proofs.Growth.Outline
import Topiary.Proofs.Value.Agreement

set_option autoImplicit false

/-!
# Recipes that are the same

Recipes of texts that are the same up to the order of their rules and the kind of their
numbers expand to the same symbols. What grows from a recipe depends on these and on the
real numbers that angle and step become. With a start that is a dictionary this would
fail: its entries are compared in any order, but expanded in theirs.
-/

namespace Topiary

namespace Value

theorem agreesList_pairs {left right : List (String × String)}
    (agree : agreesList true
      (left.map fun (key, replacement) => .list [.text key, .text replacement])
      (right.map fun (key, replacement) => .list [.text key, .text replacement]) = true) :
    left = right := by
  induction left generalizing right with
  | nil =>
      cases right with
      | nil => rfl
      | cons entry rest => simp [agreesList] at agree
  | cons entry rest ih =>
      cases right with
      | nil => simp [agreesList] at agree
      | cons other others =>
          simp only [List.map_cons, agreesList, agreesWith, Bool.and_eq_true, beq_iff_eq,
            and_true] at agree
          obtain ⟨⟨key, replacement⟩, restAgree⟩ := agree
          rw [ih restAgree, Prod.ext key replacement]

theorem agreesWith_int_iff {flag : Bool} {left right : Int} :
    agreesWith flag (.int left) (.int right) = true ↔ left = right := by
  simp only [agreesWith, number?, Numeral.Number.agrees_iff, Numeral.Number.place?_whole]
  simp

end Value

namespace Grammar

/-- Start and replacements are texts, as they are meant to be. -/
def IsTexts (grammar : Grammar) : Prop :=
  ∃ start rules, grammar = .ofTexts start rules

/-- Grammars whose agreement tells that they expand alike. -/
def Comparable (left right : Grammar) : Prop :=
  left = right ∨ left.IsTexts ∧ right.IsTexts

theorem Comparable.refl (grammar : Grammar) : grammar.Comparable grammar :=
  .inl rfl

theorem Comparable.isTexts {left right : Grammar} (comparable : left.Comparable right)
    (texts : right.IsTexts) : left.IsTexts := by
  rcases comparable with rfl | ⟨leftTexts, -⟩
  · exact texts
  · exact leftTexts

/-- In every generation the same symbols are written and as many are counted. -/
def ExpandsLike (left right : Grammar) : Prop :=
  ∀ count, left.lengthAfter count = right.lengthAfter count ∧
    left.symbolsAfter count = right.symbolsAfter count

theorem expandsLike_of_sorted {rules other : Rules} (same : rules.sorted = other.sorted)
    (start : String) : (ofTexts start rules).ExpandsLike (ofTexts start other) := by
  intro count
  have symbols := symbolsAfter_congr same start count
  rw [lengthAfter_ofTexts, lengthAfter_ofTexts, symbolsAfter, symbolsAfter, symbols]
  exact ⟨rfl, rfl⟩

end Grammar

namespace Recipe

variable {left right : Recipe}

theorem parts_of_agrees (agree : left.agrees right = true) :
    ∃ rules others, left.grammar.sortedRules = .ok rules ∧
      right.grammar.sortedRules = .ok others ∧
      left.grammar.startValue.agreesWith true right.grammar.startValue = true ∧
      Value.agreesList true (rules.map fun (key, replacement) => .list [key, replacement])
        (others.map fun (key, replacement) => .list [key, replacement]) = true ∧
      left.iterations.agreesWith true right.iterations = true ∧
      left.angle.agreesWith true right.angle = true ∧
      left.step.agreesWith true right.step = true := by
  rw [agrees] at agree
  cases leftKeyed : left.key with
  | error fault => simp [leftKeyed] at agree
  | ok leftKey =>
      cases rightKeyed : right.key with
      | error fault => simp [leftKeyed, rightKeyed] at agree
      | ok rightKey =>
          simp only [leftKeyed, rightKeyed] at agree
          rw [key] at leftKeyed rightKeyed
          obtain ⟨rules, sorted, rfl⟩ := map_eq_ok_iff.mp leftKeyed
          obtain ⟨others, otherSorted, rfl⟩ := map_eq_ok_iff.mp rightKeyed
          simp only [Value.agreesWith, Value.agreesList, Bool.and_eq_true, and_true] at agree
          exact ⟨rules, others, sorted, otherSorted, agree⟩

theorem expandsLike_of_agrees (agree : left.agrees right = true)
    (comparable : left.grammar.Comparable right.grammar) :
    left.grammar.ExpandsLike right.grammar := by
  rcases comparable with same | ⟨⟨start, rules, isTexts⟩, otherStart, otherRules, otherIsTexts⟩
  · rw [same]
    exact fun _ => ⟨rfl, rfl⟩
  · obtain ⟨sorted, otherSorted, isSorted, otherIsSorted, starts, rulesAgree, -⟩ :=
      parts_of_agrees agree
    rw [isTexts, otherIsTexts] at starts
    rw [isTexts] at isSorted
    rw [otherIsTexts] at otherIsSorted
    cases isSorted
    cases otherIsSorted
    cases Value.agreesWith_text_iff.mp starts
    rw [List.map_map, List.map_map] at rulesAgree
    rw [isTexts, otherIsTexts]
    exact Grammar.expandsLike_of_sorted (Value.agreesList_pairs rulesAgree) _

theorem symbols_congr (alike : left.grammar.ExpandsLike right.grammar)
    (sameIterations : left.iterations = right.iterations) : left.symbols = right.symbols := by
  rw [symbols, symbols, Grammar.expansion, Grammar.expansion, sameIterations]
  cases generations right.iterations with
  | error fault => rfl
  | ok count => exact (alike count).2

end Recipe

/-! ## Growing the same tree -/

theorem finiteParameter_congr {name : String} {value other : Value} {number : Float}
    (same : value.toReal = other.toReal) (checked : finiteParameter name value = .ok number) :
    finiteParameter name other = .ok number := by
  rw [finiteParameter] at checked ⊢
  rw [← same]
  cases reading : value.toReal with
  | real real =>
      simp only [reading] at checked ⊢
      by_cases finite : real.isFinite = true
      · rwa [if_pos finite] at checked ⊢
      · rw [if_neg finite] at checked
        cases checked
  | notReal => simp [reading] at checked
  | beyondRange => simp [reading] at checked

theorem drawingParameters_congr {angle step otherAngle otherStep : Value}
    {numbers : Float × Float} (sameAngle : angle.toReal = otherAngle.toReal)
    (sameStep : step.toReal = otherStep.toReal)
    (parameters : drawingParameters angle step = .ok numbers) :
    drawingParameters otherAngle otherStep = .ok numbers := by
  rw [drawingParameters] at parameters ⊢
  cases degrees : finiteParameter "angle_deg" angle with
  | error fault => simp [degrees] at parameters
  | ok number =>
      simp only [degrees, finiteParameter_congr sameAngle degrees] at parameters ⊢
      obtain ⟨length, checked, rfl⟩ := map_eq_ok_iff.mp parameters
      exact map_eq_ok_iff.mpr ⟨length, finiteParameter_congr sameStep checked, rfl⟩

theorem drawTree_congr {commands : List Command} {angle step otherAngle otherStep : Value}
    {tree : Branch Float} (sameAngle : angle.toReal = otherAngle.toReal)
    (sameStep : step.toReal = otherStep.toReal)
    (drawn : drawTree commands angle step = .ok tree) :
    drawTree commands otherAngle otherStep = .ok tree := by
  cases parameters : drawingParameters angle step with
  | error fault => simp [drawTree, parameters] at drawn
  | ok numbers =>
      have others := drawingParameters_congr sameAngle sameStep parameters
      simpa only [drawTree, parameters, others] using drawn

theorem Recipe.grow_congr {left right : Recipe} {limit : Option Value} {tree : Branch Float}
    (alike : left.grammar.ExpandsLike right.grammar)
    (sameIterations : left.iterations = right.iterations)
    (sameAngle : left.angle.toReal = right.angle.toReal)
    (sameStep : left.step.toReal = right.step.toReal) (grows : left.grow limit = .ok tree) :
    right.grow limit = .ok tree := by
  rw [grow] at grows ⊢
  rw [← sameIterations]
  cases counted : generations left.iterations with
  | error fault => simp [counted] at grows
  | ok count =>
      simp only [counted, ← (alike count).1, ← (alike count).2] at grows ⊢
      cases sized : left.grammar.lengthAfter count with
      | error fault => simp [sized] at grows
      | ok size =>
          simp only [sized] at grows ⊢
          cases checked : checkLength size count (limit.getD standardLimit) with
          | error fault => simp [checked] at grows
          | ok passed =>
              simp only [checked] at grows ⊢
              cases written : left.grammar.symbolsAfter count with
              | error fault => simp [written] at grows
              | ok symbols =>
                  simp only [written] at grows ⊢
                  exact drawTree_congr sameAngle sameStep grows

end Topiary
