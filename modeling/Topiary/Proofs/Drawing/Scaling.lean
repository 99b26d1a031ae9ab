import Topiary.Proofs.Drawing.Frames
import Topiary.Proofs.Drawing.Outline
import Topiary.Proofs.Survey.Proportion

set_option autoImplicit false

/-!
# A longer step draws a larger tree

Angles alone decide where a turtle looks, and every position is a sum of steps. So with a
step that is a multiple of another one every turtle, saved ones included, stands at the
multiple of its place, and so does every segment. All lengths grow alike, and what share
of them a pruning removes stays the same.
-/

namespace Topiary

variable {α : Type} [ExactScalar α]

/-! ## Steering -/

def Turtle.scaled (factor : α) (turtle : Turtle α) : Turtle α :=
  { turtle with position := turtle.position.map (factor * ·) }

def Course.scaled (factor : α) (course : Course α) : Course α where
  trail := ⟨course.trail.turtle.scaled factor, course.trail.saved.map (Turtle.scaled factor)⟩
  parent := course.parent
  savedParents := course.savedParents

theorem Turtle.turn_scaled (factor : α) (turtle : Turtle α) (axis : Axis) (angle : α) :
    (turtle.scaled factor).turn axis angle = (turtle.turn axis angle).map (scaled factor) := by
  cases axis with
  | heading =>
      simp only [turn, scaled]
      cases Rotor.about turtle.heading.toList angle <;> rfl
  | left =>
      simp only [turn, scaled]
      cases Rotor.about turtle.left.toList angle <;> rfl
  | up =>
      simp only [turn, scaled]
      cases Rotor.about turtle.up.toList angle <;> rfl

theorem Turtle.advance_scaled (factor step : α) (turtle : Turtle α) :
    (turtle.scaled factor).advance (factor * step) = (turtle.advance step).scaled factor := by
  have moved : turtle.position.map (factor * ·) + turtle.heading.scale (factor * step) =
      (turtle.position + turtle.heading.scale step).map (factor * ·) := by
    ext <;> simp [Vec3.scale] <;> ring
  simp only [advance, scaled, moved]

private theorem turn_scaled {course next : Course α} {axis : Axis} {angle : α} (factor : α)
    (turns : course.turn axis angle = .ok next) :
    (course.scaled factor).turn axis angle = .ok (next.scaled factor) := by
  obtain ⟨turtle, turtleTurns, rfl⟩ := map_eq_ok_iff.mp turns
  have scaledTurns := Turtle.turn_scaled factor course.trail.turtle axis angle
  rw [turtleTurns] at scaledTurns
  exact map_eq_ok_iff.mpr ⟨_, scaledTurns, rfl⟩

theorem Course.steer_scaled {course next : Course α} {angle : α} {command : Command} (factor : α)
    (steered : course.steer angle command = .ok next) :
    (course.scaled factor).steer angle command = .ok (next.scaled factor) := by
  cases command with
  | draw =>
      cases steered
      rfl
  | turn axis opposite => exact turn_scaled factor steered
  | turnBack => exact turn_scaled factor steered
  | opening =>
      cases steered
      rfl
  | closing =>
      -- Whether a bracket closes depends on how much is saved, and never on places.
      obtain ⟨⟨turtle, saved⟩, parent, savedParents⟩ := course
      cases saved with
      | nil =>
          cases steered
          rfl
      | cons savedTurtle saved =>
          cases savedParents with
          | nil => cases steered
          | cons savedParent rest =>
              cases steered
              rfl

/-! ## Growing -/

namespace Shoot

def scaled (factor : α) (shoot : Shoot α) : Shoot α :=
  ⟨shoot.course.scaled factor, shoot.spine.map (factor * ·)⟩

theorem draw_scaled (factor step : α) (shoot : Shoot α) :
    (shoot.scaled factor).draw (factor * step) = (shoot.draw step).scaled factor := by
  have position : (shoot.scaled factor).spine.tip.finished.length =
      shoot.spine.tip.finished.length := List.length_map _
  have moved := Turtle.advance_scaled factor step shoot.course.trail.turtle
  have sameSegment : (shoot.scaled factor).nextSegment (factor * step) =
      (shoot.nextSegment step).map (factor * ·) := by
    rw [nextSegment, nextSegment, position]
    simp only [Course.nextSegment, scaled, Course.scaled, moved]
    rfl
  have sameCourse : (shoot.course.scaled factor).moveTo (shoot.nextSegment step).id
      (factor * step) = (shoot.course.moveTo (shoot.nextSegment step).id step).scaled factor := by
    simp only [Course.moveTo, Course.scaled, moved]
  rw [draw, draw, sameSegment]
  exact congrArg₂ Shoot.mk sameCourse rfl

theorem follow_scaled (factor : α) (shoot : Shoot α) (course : Course α) :
    (shoot.scaled factor).follow (course.scaled factor) = (shoot.follow course).scaled factor := by
  rw [follow, follow, scaled, scaled, Spine.map_settle]
  rfl

theorem obey_scaled {angle step : α} {shoot next : Shoot α} {command : Command} (factor : α)
    (obeyed : shoot.obey angle step command = .ok next) :
    (shoot.scaled factor).obey angle (factor * step) command = .ok (next.scaled factor) := by
  rcases Course.obey_cases obeyed with ⟨rfl, drawn⟩ | ⟨steers, course, steered, rfl⟩
  · cases drawn
    exact congrArg Except.ok (draw_scaled factor step shoot)
  · rw [obey, Course.obey_of_ne_draw steers, ← follow_scaled]
    exact map_eq_ok_iff.mpr ⟨_, Course.steer_scaled factor steered, rfl⟩

theorem initial_scaled (factor : α) : (initial : Shoot α).scaled factor = initial := by
  have origin : (Vec3.origin : Vec3 α).map (factor * ·) = Vec3.origin := by
    ext <;> exact mul_zero factor
  have turtle : (Turtle.initial : Turtle α).scaled factor = Turtle.initial :=
    congrArg (fun position => { (Turtle.initial : Turtle α) with position := position }) origin
  have root : (Segment.root : Segment α).map (factor * ·) = Segment.root :=
    congrArg (fun place => { (Segment.root : Segment α) with start := place, finish := place })
      origin
  have course : (Course.initial : Course α).scaled factor = Course.initial :=
    congrArg (fun turtle => (⟨⟨turtle, []⟩, rootId, []⟩ : Course α)) turtle
  have spine : (Spine.ofSegment (Segment.root : Segment α)).map (factor * ·) =
      Spine.ofSegment Segment.root :=
    congrArg Spine.ofSegment root
  exact congrArg₂ Shoot.mk course spine

theorem tree_scaled {angle step : α} {commands : List Command} {tree : Branch α} (factor : α)
    (drawn : Shoot.tree angle step commands = .ok tree) :
    Shoot.tree angle (factor * step) commands = .ok (tree.map (factor * ·)) := by
  obtain ⟨shoot, obeyed, rfl⟩ := map_eq_ok_iff.mp drawn
  have scaledObeyed := Command.obeyAll_view (scaled factor) (fun _ _ _ => obey_scaled factor)
    commands obeyed
  rw [initial_scaled] at scaledObeyed
  exact map_eq_ok_iff.mpr ⟨_, scaledObeyed, Spine.toBranch_map _ _⟩

end Shoot

/-- With a step that is a multiple of another one, the same tokens draw the same tree with all its
coordinates multiplied. So are the squares of its lengths, and a pruning removes the same share of
the length from both if the factor is positive. -/
theorem Drawing.tree_rescaled (angle step factor : α) (tokens : List String) :
    ∃ tree scaled, Drawing.tree angle step (Command.ofTokens tokens) = .ok tree ∧
      Drawing.tree angle (factor * step) (Command.ofTokens tokens) = .ok scaled ∧
      scaled = tree.map (factor * ·) ∧ scaled.outline = tree.outline ∧
      scaled.traverse.map (fun branch => branch.segment.squaredLength) =
        tree.traverse.map (fun branch => factor * factor * branch.segment.squaredLength) ∧
      (0 < factor → ∀ gone,
        (Comparison.ofTrees scaled (scaled.without gone)).fractionRemoved =
          (Comparison.ofTrees tree (tree.without gone)).fractionRemoved) := by
  obtain ⟨tree, drawn, distinct, even⟩ := Drawing.exists_even_tree angle step tokens
  have grown := (Drawing.tree_eq angle step _).symm.trans drawn
  have scaledDrawn : Drawing.tree angle (factor * step) (Command.ofTokens tokens) =
      .ok (tree.map (factor * ·)) :=
    (Drawing.tree_eq angle _ _).trans (Shoot.tree_scaled factor grown)
  refine ⟨tree, _, drawn, scaledDrawn, rfl, Branch.outline_map _ tree, ?_, ?_⟩
  · rw [Branch.traverse_eq_preorder, Branch.traverse_eq_preorder, Branch.preorder_map,
      List.map_map]
    apply List.map_congr_left
    intro branch _
    rw [Function.comp_apply, Branch.segment_map, Segment.squaredLength_scaled]
  · intro positive gone
    exact Comparison.fractionRemoved_scaled distinct even positive gone

/-- A fork with a slanted arm, at three times its size, and both without the arm. -/
theorem Drawing.tree_rescaled_fork :
    let tokens := ["F", "[", "+", "F", "]", "F"]
    let gone := IdSet.ofIds ["root-0-0"]
    (0 : ℚ) < 3 ∧ ∃ tree scaled, Drawing.tree (1 : ℚ) 2 (Command.ofTokens tokens) = .ok tree ∧
      Drawing.tree (1 : ℚ) (3 * 2) (Command.ofTokens tokens) = .ok scaled ∧
      scaled = tree.map (3 * ·) ∧
      (Comparison.ofTrees scaled (scaled.without gone)).fractionRemoved =
        (Comparison.ofTrees tree (tree.without gone)).fractionRemoved := by
  intro tokens gone
  have positive : (0 : ℚ) < 3 := by norm_num
  obtain ⟨tree, scaled, drawn, scaledDrawn, same, -, -, shares⟩ :=
    Drawing.tree_rescaled (1 : ℚ) 2 3 tokens
  exact ⟨positive, tree, scaled, drawn, scaledDrawn, same, shares positive gone⟩

end Topiary
