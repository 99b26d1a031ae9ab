import Topiary.Proofs.Branch.Outline
import Topiary.Proofs.Drawing.Simulation

set_option autoImplicit false

/-!
# Angle and step leave the outline alone

With blanks for numbers all points are one, every turn succeeds and changes nothing, and
what is drawn is an outline. Leaving out the coordinates turns every drawing into this
one, whatever its angle and its step.
-/

namespace Topiary

variable {α : Type}

/-- A blank stands for every number, and no length is below another. -/
instance : Scalar Blank where
  add _ _ := ⟨⟩
  sub _ _ := ⟨⟩
  mul _ _ := ⟨⟩
  div _ _ := ⟨⟩
  neg _ := ⟨⟩
  zero := ⟨⟩
  one := ⟨⟩
  half := ⟨⟩
  straight := ⟨⟩
  degree := ⟨⟩
  tiny := ⟨⟩
  squareRoot _ := ⟨⟩
  sine _ := ⟨⟩
  cosine _ := ⟨⟩
  less _ _ := false
  isNumber _ := true

/-! ## Steering -/

/-- A turtle of which only the number of open brackets is known. -/
def Turtle.outline (turtle : Turtle α) : Turtle Blank :=
  { (Turtle.initial : Turtle Blank) with depth := turtle.depth }

def Course.outline (course : Course α) : Course Blank where
  trail := ⟨course.trail.turtle.outline, course.trail.saved.map Turtle.outline⟩
  parent := course.parent
  savedParents := course.savedParents

private theorem outline_turn [Scalar α] {course next : Course α} {axis : Axis} {angle : α}
    (turns : course.turn axis angle = .ok next) :
    course.outline.turn axis ⟨⟩ = .ok next.outline := by
  obtain ⟨turtle, turtleTurns, rfl⟩ := map_eq_ok_iff.mp turns
  have sameOutline : turtle.outline = course.trail.turtle.outline := by
    rw [Turtle.outline, Turtle.outline, (Turtle.turn_stays turtleTurns).2]
  rw [Course.outline, Course.outline, sameOutline]
  cases axis <;> rfl

theorem Course.outline_steer [Scalar α] {course next : Course α} {angle : α} {command : Command}
    (steered : course.steer angle command = .ok next) :
    course.outline.steer ⟨⟩ command = .ok next.outline := by
  cases command with
  | draw =>
      cases steered
      rfl
  | turn axis opposite => exact outline_turn steered
  | turnBack => exact outline_turn steered
  | opening =>
      cases steered
      rfl
  | closing =>
      obtain ⟨⟨turtle, saved⟩, parent, savedParents⟩ := course
      cases saved with
      | nil =>
          cases steered
          rfl
      | cons savedTurtle saved =>
          cases savedParents with
          | nil => cases steered
          | cons savedParent rest =>
              cases steered
              rfl

/-! ## Growing -/

namespace Shoot

def outline (shoot : Shoot α) : Shoot Blank :=
  ⟨shoot.course.outline, shoot.spine.map fun _ => ⟨⟩⟩

theorem outline_draw [Scalar α] (shoot : Shoot α) (step : α) :
    (shoot.draw step).outline = shoot.outline.draw ⟨⟩ := by
  have position : shoot.outline.spine.tip.finished.length = shoot.spine.tip.finished.length :=
    List.length_map _
  have sameSegment :
      (shoot.nextSegment step).map (fun _ => ⟨⟩) = shoot.outline.nextSegment ⟨⟩ := by
    rw [nextSegment, nextSegment, position]
    rfl
  rw [draw, draw, ← sameSegment]
  rfl

theorem outline_follow (shoot : Shoot α) (course : Course α) :
    (shoot.follow course).outline = shoot.outline.follow course.outline := by
  rw [follow, follow, outline, Spine.map_settle]
  rfl

theorem outline_obey [Scalar α] {angle step : α} {shoot next : Shoot α} {command : Command}
    (obeyed : shoot.obey angle step command = .ok next) :
    shoot.outline.obey ⟨⟩ ⟨⟩ command = .ok next.outline := by
  rcases Course.obey_cases obeyed with ⟨rfl, drawn⟩ | ⟨steers, course, steered, rfl⟩
  · cases drawn
    rw [outline_draw]
    rfl
  · rw [obey, Course.obey_of_ne_draw steers, outline_follow]
    exact map_eq_ok_iff.mpr ⟨_, Course.outline_steer steered, rfl⟩

theorem tree_outline [Scalar α] {angle step : α} {commands : List Command} {tree : Branch α}
    (drawn : Shoot.tree angle step commands = .ok tree) :
    Shoot.tree ⟨⟩ ⟨⟩ commands = .ok tree.outline := by
  obtain ⟨shoot, obeyed, rfl⟩ := map_eq_ok_iff.mp drawn
  have outlineObeyed := Command.obeyAll_view outline (fun _ _ _ first => outline_obey first)
    commands obeyed
  exact map_eq_ok_iff.mpr ⟨_, outlineObeyed, Spine.toBranch_map _ _⟩

end Shoot

/-- Whatever the angles and the steps, the same symbols draw trees with the same outline. What is
below a segment, and which ids remain after pruning, is therefore the same in both. -/
theorem drawValue_outline {symbols angle step otherAngle otherStep : Value}
    {tree other : Branch Float} (drawn : drawValue symbols angle step = .ok tree)
    (otherDrawn : drawValue symbols otherAngle otherStep = .ok other) :
    tree.outline = other.outline ∧ (∀ id, tree.idsFrom id = other.idsFrom id) ∧
      ∀ gone, (tree.without gone).traverse.map Branch.id =
        (other.without gone).traverse.map Branch.id := by
  obtain ⟨radians, length, commands, shoot, -, given, obeyed, sound, rfl⟩ := exists_shoot drawn
  obtain ⟨otherRadians, otherLength, otherCommands, otherShoot, -, otherGiven, otherObeyed,
    otherSound, rfl⟩ := exists_shoot otherDrawn
  obtain rfl : commands = otherCommands := Except.ok.inj (given.symm.trans otherGiven)
  have sameOutline : shoot.spine.toBranch.outline = otherShoot.spine.toBranch.outline := by
    have outlined := Shoot.tree_outline (map_eq_ok_iff.mpr ⟨shoot, obeyed, rfl⟩)
    have otherOutlined := Shoot.tree_outline (map_eq_ok_iff.mpr ⟨otherShoot, otherObeyed, rfl⟩)
    exact Except.ok.inj (outlined.symm.trans otherOutlined)
  exact ⟨sameOutline, Branch.idsFrom_congr sameOutline,
    Branch.ids_without_congr sound.named.distinctIds otherSound.named.distinctIds sameOutline⟩

theorem drawValue_outline_fork :
    ∃ tree other, drawValue (.text "F[F]F") (.int 0) (.int 1) = .ok tree ∧
      drawValue (.text "F[F]F") (.int 90) (.int 2) = .ok other ∧ tree.outline = other.outline ∧
      tree.idsFrom "root-0" = other.idsFrom "root-0" := by
  have drawn : drawValue (.text "F[F]F") (.int 0) (.int 1) = .ok _ :=
    (drawValue_eq rfl rfl).trans rfl
  have otherDrawn : drawValue (.text "F[F]F") (.int 90) (.int 2) = .ok _ :=
    (drawValue_eq rfl rfl).trans rfl
  obtain ⟨sameOutline, sameIds, -⟩ := drawValue_outline drawn otherDrawn
  exact ⟨_, _, drawn, otherDrawn, sameOutline, sameIds "root-0"⟩

end Topiary
