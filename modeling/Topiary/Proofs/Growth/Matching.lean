import Topiary.Proofs.Grammar.Substitution
import Topiary.Species.Catalog

set_option autoImplicit false

/-!
# Grammars that close what they open

Where the brackets of a text match, the turtle closes no bracket that is not open and in
the end is back outside of all of them. This is so for whatever a grammar expands to
whose start and replacements have matching brackets, and every species of the catalog is
such a grammar.
-/

namespace Topiary

theorem count_opening_eq_bracketHeight {tokens : List String}
    (neverBelow : ∀ front, front <+: tokens → front.count "]" ≤ front.count "[") :
    tokens.count "[" = bracketHeight tokens + tokens.count "]" := by
  induction tokens using List.reverseRecOn with
  | nil => rfl
  | append_singleton front token ih =>
      have counted := ih fun earlier begins =>
        neverBelow earlier (begins.trans (List.prefix_append _ _))
      rw [bracketHeight_append_singleton]
      refine count_opening_append_singleton counted ?_
      rintro rfl
      have bound := neverBelow _ (List.prefix_refl _)
      simp at bound
      omega

/-- In front of a closing bracket a balanced text has one open. -/
theorem bracketHeight_pos {tokens front : List String} (balanced : Balanced "[" "]" tokens)
    (begins : front ++ ["]"] <+: tokens) : 0 < bracketHeight front := by
  have height := count_opening_eq_bracketHeight fun earlier before =>
    balanced.neverBelow earlier (before.trans ((List.prefix_append front _).trans begins))
  have bound := balanced.neverBelow _ begins
  simp at bound
  omega

/-! ## Runs -/

namespace Drawing

variable {α : Type} [Scalar α] {angle step : α} {drawing next : Drawing α} {tokens : List String}

theorem exists_after_of_append {front back : List String}
    (ran : Drawing.after angle step (front ++ back) = .ok next) :
    ∃ middle, Drawing.after angle step front = .ok middle ∧
      Command.obeyAll (Drawing.obey angle step) middle (Command.ofTokens back) = .ok next := by
  rw [Drawing.after_append] at ran
  cases ranFront : Drawing.after angle step front with
  | error fault => simp [ranFront, Except.bind] at ran
  | ok middle => exact ⟨middle, rfl, by simpa [ranFront, Except.bind] using ran⟩

/-- A run over tokens in which every closing bracket takes back what was saved last, and after which
nothing is saved. -/
structure Matched (angle step : α) (tokens : List String) : Prop where
  closes : ∀ front, front ++ ["]"] <+: tokens → ∃ drawing turtle turtles parent parents,
    Drawing.after angle step front = .ok drawing ∧
      drawing.course.trail.saved = turtle :: turtles ∧
      drawing.course.savedParents = parent :: parents ∧
      Drawing.after angle step (front ++ ["]"]) =
        .ok (drawing.follow ⟨⟨turtle, turtles⟩, parent, parents⟩)
  ends : ∃ drawing, Drawing.after angle step tokens = .ok drawing ∧
    drawing.course.trail.saved = [] ∧ drawing.course.savedParents = [] ∧
    drawing.course.trail.turtle.depth = 0

theorem obeyAll_closing {turtle : Turtle α} {turtles : List (Turtle α)} {parent : String}
    {parents : List String} (savedTurtles : drawing.course.trail.saved = turtle :: turtles)
    (savedParents : drawing.course.savedParents = parent :: parents) :
    Command.obeyAll (Drawing.obey angle step) drawing (Command.ofTokens ["]"]) =
      .ok (drawing.follow ⟨⟨turtle, turtles⟩, parent, parents⟩) := by
  have read : Command.ofTokens ["]"] = [.closing] := rfl
  simp only [read, Command.obeyAll, Drawing.obey, Course.steer, Course.closeBracket, savedTurtles,
    savedParents, Trail.restore, Except.map]

theorem matched_of_balanced (balanced : Balanced "[" "]" tokens)
    (ran : Drawing.after angle step tokens = .ok next) : Matched angle step tokens where
  closes front begins := by
    have isOpen := bracketHeight_pos balanced begins
    obtain ⟨back, rfl⟩ := begins
    rw [List.append_assoc] at ran
    obtain ⟨drawing, ranFront, -⟩ := exists_after_of_append ran
    have nested := Drawing.nested_after ranFront
    obtain ⟨turtle, turtles, savedTurtles⟩ :=
      List.exists_cons_of_length_pos (nested.turtles.symm ▸ isOpen)
    obtain ⟨parent, parents, savedParents⟩ :=
      List.exists_cons_of_length_pos (nested.parents.symm ▸ isOpen)
    refine ⟨drawing, turtle, turtles, parent, parents, ranFront, savedTurtles, savedParents, ?_⟩
    rw [Drawing.after_append, ranFront]
    exact obeyAll_closing savedTurtles savedParents
  ends := by
    have height := count_opening_eq_bracketHeight balanced.neverBelow
    have closed := balanced.closed
    have nested := Drawing.nested_after ran
    have atGround : bracketHeight tokens = 0 := by omega
    rw [atGround] at nested
    exact ⟨next, ran, List.length_eq_zero_iff.mp nested.turtles,
      List.length_eq_zero_iff.mp nested.parents, nested.depth⟩

end Drawing

/-! ## Growth -/

/-- After any number of generations the brackets of a grammar match, for a reader of its text and for
a turtle that draws it. -/
def Grammar.GrowsMatched (grammar : Grammar) : Prop :=
  ∀ count : Nat, ∃ symbols, grammar.expansion (.int count) = .ok symbols ∧
    Balanced '[' ']' symbols ∧
    ∀ angle step tree, drawValue (.text (String.ofList symbols)) angle step = .ok tree →
      ∃ radians length, drawingParameters angle step = .ok (radians, length) ∧
        Drawing.Matched radians length (singles symbols)

theorem matched_of_drawValue {symbols : List Char} {angle step : Value} {tree : Branch Float}
    (balanced : Balanced '[' ']' symbols)
    (drawn : drawValue (.text (String.ofList symbols)) angle step = .ok tree) :
    ∃ radians length, drawingParameters angle step = .ok (radians, length) ∧
      Drawing.Matched radians length (singles symbols) := by
  obtain ⟨radians, length, -, -, parameters, -⟩ := exists_shoot drawn
  obtain ⟨sketch, readTokens, -⟩ :=
    (drawValue_agree_readAll (asParts_ofList symbols) parameters).exists_right drawn
  obtain ⟨drawing, ran, -⟩ := (Drawing.agree_readAll radians length _).exists_left readTokens
  have tokens : Balanced "[" "]" (singles symbols) := balanced.map singleton_injective
  exact ⟨radians, length, parameters, Drawing.matched_of_balanced tokens ran⟩

theorem BracketsMatch.growsMatched {start : String} {rules : Rules}
    (brackets : BracketsMatch start rules) : (Grammar.ofTexts start rules).GrowsMatched := by
  intro count
  have balanced := brackets.balanced_symbolsAfter count
  exact ⟨symbolsAfter start rules count, rfl, balanced,
    fun angle step tree drawn => matched_of_drawValue balanced drawn⟩

theorem Catalog.exists_bracketsMatch {species : Species} (member : species ∈ Catalog.all) :
    ∃ start rules, species.grammar = .ofTexts start rules ∧ BracketsMatch start rules := by
  simp only [Catalog.all, List.mem_cons, List.not_mem_nil, or_false] at member
  rcases member with rfl | rfl | rfl | rfl | rfl
  all_goals exact ⟨_, _, rfl, .of_productions (by decide) (by decide)⟩

/-- Where the brackets of the start and of all replacements match and no bracket has a rule, the
brackets of every generation match. A turtle that draws it ignores no closing bracket and leaves
none open. All species of the catalog grow so. -/
theorem grammar_growsMatched :
    (∀ start rules, BracketsMatch start rules → (Grammar.ofTexts start rules).GrowsMatched) ∧
      ∀ species ∈ Catalog.all,
        (∃ start rules, species.grammar = .ofTexts start rules ∧ BracketsMatch start rules) ∧
          species.grammar.GrowsMatched := by
  refine ⟨fun start rules brackets => brackets.growsMatched, fun species member => ?_⟩
  obtain ⟨start, rules, grammar, brackets⟩ := Catalog.exists_bracketsMatch member
  exact ⟨⟨start, rules, grammar, brackets⟩, grammar ▸ brackets.growsMatched⟩

/-- One marker grows inside brackets, and another one gives way to empty ones. -/
theorem grammar_growsMatched_markers :
    let rules : Rules := ⟨[("A", "F[A]B"), ("B", "[]")]⟩
    BracketsMatch "A" rules ∧
      (Grammar.ofTexts "A" rules).expansion (.int 2) = .ok "F[F[A]B][]".toList ∧
      ∃ (tree : Branch Float) (radians length : Float),
        drawValue (.text (String.ofList "F[F[A]B][]".toList)) (.int 0) (.int 1) = .ok tree ∧
          Drawing.Matched radians length (singles "F[F[A]B][]".toList) := by
  intro rules
  have brackets : BracketsMatch "A" rules := .of_productions (by decide) (by decide)
  have expands : (Grammar.ofTexts "A" rules).expansion (.int 2) = .ok "F[F[A]B][]".toList := rfl
  have drawn : drawValue (.text (String.ofList "F[F[A]B][]".toList)) (.int 0) (.int 1) = .ok _ :=
    (drawValue_eq rfl rfl).trans rfl
  obtain ⟨symbols, expanded, -, draws⟩ := grammar_growsMatched.1 "A" rules brackets 2
  cases expands.symm.trans expanded
  obtain ⟨radians, length, -, closes⟩ := draws _ _ _ drawn
  exact ⟨brackets, expands, _, radians, length, drawn, closes⟩

end Topiary
