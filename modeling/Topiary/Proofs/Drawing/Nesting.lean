import Topiary.Proofs.Drawing.Connected
import Topiary.Proofs.Drawing.Runs

set_option autoImplicit false

/-!
# Depth is the number of open brackets

How many brackets are open can be told from the tokens alone. A course has saved one
turtle and one parent for each of them, the depth of its turtle is their number, and a
saved turtle is as deep as the brackets below it on the stack.
-/

namespace Topiary

/-! ## Bracket heights -/

/-- The number of open brackets after one more token. Without an open one, a closing bracket
closes nothing. -/
def heightAfter (height : Nat) (token : String) : Nat :=
  if token = "[" then height + 1
  else if token = "]" then height - 1
  else height

def bracketHeight (tokens : List String) : Nat :=
  tokens.foldl heightAfter 0

theorem bracketHeight_append_singleton (front : List String) (token : String) :
    bracketHeight (front ++ [token]) = heightAfter (bracketHeight front) token := by
  simp [bracketHeight]

theorem heightAfter_of_ne {token : String} (notOpening : token ≠ "[") (notClosing : token ≠ "]")
    (height : Nat) : heightAfter height token = height := by
  simp [heightAfter, notOpening, notClosing]

theorem heightAfter_of_unknown {token : String} (unknown : Command.ofToken? token = none)
    (height : Nat) : heightAfter height token = height := by
  refine heightAfter_of_ne ?_ ?_ height
  · rintro rfl
    cases unknown
  · rintro rfl
    cases unknown

namespace Command

theorem token_inj {command other : Command} : command.token = other.token ↔ command = other := by
  constructor
  · intro same
    have read : ofToken? command.token = some command := ofToken?_eq_some_iff.mpr rfl
    exact Option.some.inj (read.symm.trans (ofToken?_eq_some_iff.mpr same))
  · exact congrArg token

end Command

theorem heightAfter_token {command : Command} (notOpening : command ≠ .opening)
    (notClosing : command ≠ .closing) (height : Nat) :
    heightAfter height command.token = height :=
  heightAfter_of_ne (fun same => notOpening (Command.token_inj.mp same))
    (fun same => notClosing (Command.token_inj.mp same)) height

/-! ## Courses -/

variable {α : Type}

namespace Course

variable {height : Nat} {course next : Course α} {command : Command}

theorem Steered.length_saved (steered : Steered course command next) :
    next.trail.saved.length = heightAfter course.trail.saved.length command.token := by
  cases steered with
  | turned notOpening notClosing => rw [heightAfter_token notOpening notClosing]
  | opened => rfl
  | unmatched saved =>
      rw [saved]
      rfl
  | closed turtles =>
      rw [turtles]
      rfl

/-- A course inside the given number of brackets, for each of which a turtle and a parent are
saved. -/
structure Nested (height : Nat) (course : Course α) : Prop where
  turtles : course.trail.saved.length = height
  parents : course.savedParents.length = height
  depth : course.trail.turtle.depth = height
  /-- The turtle saved first, which comes last, has depth zero. -/
  savedDepths : course.trail.saved.map Turtle.depth = (List.range height).reverse

namespace Nested

theorem initial [Scalar α] : (Course.initial : Course α).Nested 0 :=
  ⟨rfl, rfl, rfl, rfl⟩

theorem moveTo [Scalar α] (nested : course.Nested height) (id : String) (step : α) :
    (course.moveTo id step).Nested height :=
  ⟨nested.turtles, nested.parents, nested.depth, nested.savedDepths⟩

theorem steered (nested : course.Nested height) (steered : Steered course command next) :
    next.Nested (heightAfter height command.token) := by
  have turtles := steered.length_saved
  rw [nested.turtles] at turtles
  cases steered with
  | turned notOpening notClosing position depth =>
      rw [heightAfter_token notOpening notClosing] at turtles ⊢
      exact ⟨turtles, nested.parents, depth.trans nested.depth, nested.savedDepths⟩
  | opened =>
      refine ⟨turtles, congrArg Nat.succ nested.parents, congrArg Nat.succ nested.depth, ?_⟩
      have depths := nested.savedDepths
      change (course.trail.turtle :: course.trail.saved).map Turtle.depth =
        (List.range (height + 1)).reverse
      simp [List.range_succ, nested.depth, depths]
  | unmatched saved =>
      have atGround := nested.turtles
      rw [saved] at atGround
      cases atGround
      exact nested
  | closed savedTurtles savedParents =>
      obtain ⟨lengths, parents, -, depths⟩ := nested
      rw [savedTurtles] at lengths depths
      rw [savedParents] at parents
      cases lengths
      simp only [List.map_cons, List.length_cons, List.range_succ, List.reverse_append,
        List.reverse_singleton, List.singleton_append, List.cons.injEq] at depths
      exact ⟨turtles, Nat.succ.inj parents, depths.1, depths.2⟩

end Nested

end Course

/-! ## Strokes -/

namespace Sketch

variable {angle step : α} {sketch next : Sketch α} {token : String} {tokens : List String}

/-- A stroke that was made at the token in front of which the given number of strokes were made,
as deep as the brackets that were open there. -/
def MadeAt (tokens : List String) (position : Nat) (stroke : Stroke α) : Prop :=
  ∃ front back, tokens = front ++ "F" :: back ∧ front.count "F" = position ∧
    stroke.depth = bracketHeight front

theorem MadeAt.append {position : Nat} {stroke : Stroke α} (made : MadeAt tokens position stroke)
    (more : List String) : MadeAt (tokens ++ more) position stroke := by
  obtain ⟨front, back, split, count, depth⟩ := made
  exact ⟨front, back ++ more, by simp [split], count, depth⟩

/-- What the tokens that were read tell about the depths in a sketch. -/
structure Levelled (tokens : List String) (sketch : Sketch α) : Prop where
  nested : sketch.course.Nested (bracketHeight tokens)
  count : sketch.strokes.length = tokens.count "F"
  made : ∀ position stroke, sketch.strokes[position]? = some stroke → MadeAt tokens position stroke

namespace Levelled

theorem initial [Scalar α] : (Sketch.initial : Sketch α).Levelled [] where
  nested := .initial
  count := rfl
  made := by simp [Sketch.initial]

private theorem follow (levelled : sketch.Levelled tokens) {course : Course α}
    (undrawn : token ≠ "F") (nested : course.Nested (heightAfter (bracketHeight tokens) token)) :
    (sketch.follow course).Levelled (tokens ++ [token]) where
  nested := bracketHeight_append_singleton tokens token ▸ nested
  count := by
    rw [List.count_append, List.count_singleton, if_neg (by simpa using undrawn)]
    exact levelled.count
  made := fun position stroke listed => (levelled.made position stroke listed).append [token]

theorem reads [Scalar α] (levelled : sketch.Levelled tokens)
    (read : Reads step sketch token next) : next.Levelled (tokens ++ [token]) := by
  have nested := levelled.nested
  cases read with
  | drawn =>
      refine ⟨?_, by simp [draw, levelled.count], ?_⟩
      · rw [bracketHeight_append_singleton, heightAfter_of_ne (by decide) (by decide)]
        exact nested.moveTo _ step
      · intro position stroke listed
        rcases Branch.getElem?_append_singleton_cases listed with old | ⟨rfl, rfl⟩
        · exact (levelled.made position stroke old).append ["F"]
        · exact ⟨tokens, [], rfl, levelled.count.symm, nested.depth⟩
  | ignored unknown =>
      have undrawn : token ≠ "F" := by
        rintro rfl
        cases unknown
      refine levelled.follow undrawn ?_
      rw [heightAfter_of_unknown unknown]
      exact nested
  | steered undrawn steered =>
      exact levelled.follow (fun same => undrawn (Command.token_inj.mp same))
        (nested.steered steered)

end Levelled

theorem levelled_of_readAll [Scalar α]
    (readTokens : Sketch.initial.readAll angle step tokens = .ok sketch) :
    sketch.Levelled tokens :=
  readAll_keeps Levelled .initial (fun _ _ _ _ _ levelled read => levelled.reads read) readTokens

end Sketch

theorem Drawing.nested_after [Scalar α] {angle step : α} {tokens : List String}
    {drawing : Drawing α} (drawn : Drawing.after angle step tokens = .ok drawing) :
    drawing.course.Nested (bracketHeight tokens) := by
  obtain ⟨sketch, readTokens, sameCourse⟩ :=
    (Drawing.agree_readAll angle step tokens).exists_right drawn
  exact sameCourse ▸ (Sketch.levelled_of_readAll readTokens).nested

/-! ## Drawn trees -/

/-- After any tokens a turtle and a parent are saved for each open bracket, and the depths count the
open brackets. No parent is missing where a bracket closes. In the tree the depth of each segment
is the number of brackets open at its token, and no child is less deep than its parent. -/
theorem drawValue_depths {symbols angle step : Value} {tokens : List String}
    {radians length : Float} (parts : symbols.asParts = .ok (tokens.map Value.text))
    (parameters : drawingParameters angle step = .ok (radians, length)) :
    (∀ front, front <+: tokens →
      (∃ drawing, Drawing.after radians length front = .ok drawing ∧
          drawing.course.Nested (bracketHeight front)) ∨
        Drawing.after radians length front = .error .axisWithoutLength) ∧
      drawValue symbols angle step ≠ .error .noSavedParent ∧
      ∀ tree, drawValue symbols angle step = .ok tree →
        (∀ position branch, tree.traverse[position + 1]? = some branch →
          ∃ front back, tokens = front ++ "F" :: back ∧ front.count "F" = position ∧
            branch.segment.depth = (bracketHeight front : Int)) ∧
        tree.segment.depth = -1 ∧
        ∀ parent ∈ tree.traverse, ∀ child ∈ parent.children,
          parent.segment.depth ≤ child.segment.depth := by
  refine ⟨?_, ?_, ?_⟩
  · intro front begins
    cases ran : Drawing.after radians length front with
    | ok drawing => exact .inl ⟨drawing, rfl, Drawing.nested_after ran⟩
    | error fault =>
        cases Drawing.after_error ran
        exact .inr rfl
  · intro failed
    rw [drawValue_eq parameters (Command.ofValue_eq parts)] at failed
    cases Shoot.tree_error failed
  · intro tree drawn
    have grown := linked_growsFrom_of_drawValue drawn
    obtain ⟨sketch, readTokens, walk⟩ :=
      (drawValue_agree_readAll parts parameters).exists_right drawn
    refine ⟨?_, ?_, ?_⟩
    · intro position branch listed
      have segment : (sketch.strokes.map Stroke.segment)[position]? = some branch.segment := by
        rw [← List.getElem?_cons_succ, ← walk, List.getElem?_map, listed]
        rfl
      rw [List.getElem?_map] at segment
      obtain ⟨stroke, strokeListed, sameSegment⟩ := Option.map_eq_some_iff.mp segment
      obtain ⟨front, back, split, count, depth⟩ :=
        (Sketch.levelled_of_readAll readTokens).made position stroke strokeListed
      refine ⟨front, back, split, count, ?_⟩
      rw [← sameSegment, ← depth]
      rfl
    · rw [Branch.traverse_eq_preorder, Branch.preorder_eq, List.map_cons] at walk
      rw [(List.cons.inj walk).1]
      rfl
    · intro parent member child childMember
      obtain ⟨_, -, deeper⟩ := grown.exists_link member childMember
      exact deeper

/-- A closing bracket comes too early, and two brackets are left open. -/
theorem drawValue_depths_unbalanced :
    ∃ radians length drawing tree,
      drawingParameters (.int 0) (.int 1) = .ok (radians, length) ∧
        Drawing.after radians length ["]", "[", "F", "[", "F"] = .ok drawing ∧
        drawing.course.Nested 2 ∧
        drawValue (.text "][F[F") (.int 0) (.int 1) = .ok tree ∧
        tree.traverse.map (fun branch => branch.segment.depth) = [-1, 1, 2] ∧
        ∀ parent ∈ tree.traverse, ∀ child ∈ parent.children,
          parent.segment.depth ≤ child.segment.depth := by
  have parts : (Value.text "][F[F").asParts =
      .ok (["]", "[", "F", "[", "F"].map Value.text) := rfl
  obtain ⟨radians, length, parameters⟩ :
      ∃ radians length, drawingParameters (.int 0) (.int 1) = .ok (radians, length) := ⟨_, _, rfl⟩
  have readTokens : Sketch.initial.readAll radians length ["]", "[", "F", "[", "F"] = .ok _ := rfl
  obtain ⟨drawing, ran, -⟩ := (Drawing.agree_readAll radians length _).exists_left readTokens
  have drawn : drawValue (.text "][F[F") (.int 0) (.int 1) = .ok _ :=
    (drawValue_eq parameters rfl).trans rfl
  obtain ⟨nested, -, trees⟩ := drawValue_depths parts parameters
  refine ⟨radians, length, drawing, _, parameters, ran, ?_, drawn, ?_, (trees _ drawn).2.2⟩
  · rcases nested _ (List.prefix_refl _) with ⟨other, otherRan, atTwo⟩ | failed
    · cases ran.symm.trans otherRan
      exact atTwo
    · cases ran.symm.trans failed
  · rw [Branch.traverse_eq_preorder]
    rfl

end Topiary
