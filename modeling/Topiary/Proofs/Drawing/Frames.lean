import Topiary.Proofs.Survey.Sums
import Topiary.Proofs.Geometry.Rotation
import Topiary.Proofs.Drawing.Strokes
import Topiary.Proofs.Branch.Visible

set_option autoImplicit false

/-!
# Turtles keep their frame

In exact arithmetic the directions of a turtle are perpendicular unit vectors wherever it
turns: a turn about one of them is a rotation of all three. So an axis always has length
one, no turn is refused, and every stroke has the length of the step.
-/

namespace Topiary

variable {α : Type} [ExactScalar α]

/-! ## Turns about unit axes -/

namespace Rotor

def turning (axis : Vec3 α) (angle : α) : Rotor α :=
  ⟨Scalar.cosine (Scalar.half * angle), axis.scale (Scalar.sine (Scalar.half * angle))⟩

variable {axis : Vec3 α}

theorem norm_toList (unit : axis.dot axis = 1) : norm axis.toList = 1 := by
  have sum : axis.toList.foldl (fun sum part => sum + part * part) Scalar.zero = 1 * 1 := by
    rw [mul_one, ← unit]
    simp only [Vec3.toList, Vec3.dot, List.foldl_cons, List.foldl_nil, Scalar.zero_eq, zero_add]
  rw [norm, sum]
  exact (ExactScalar.squareRoot_mul_self 1).trans abs_one

theorem about_eq (unit : axis.dot axis = 1) (angle : α) :
    about axis.toList angle = .ok (turning axis angle) := by
  have longEnough : ¬ Scalar.less (1 : α) Scalar.tiny = true := by
    rw [Scalar.less_eq_true_iff]
    change ¬ (1 : α) < 1 / 10 ^ 12
    norm_num
  have size := norm_toList unit
  cases axis with
  | mk x y z =>
      simp only [Vec3.toList] at size ⊢
      rw [about, size, if_neg longEnough]
      simp [turning, Vec3.scale, mul_comm]

theorem isUnit_turning (unit : axis.dot axis = 1) (angle : α) : (turning axis angle).IsUnit := by
  have circle : ∀ half : α,
      Scalar.cosine half * Scalar.cosine half + Scalar.sine half * Scalar.sine half = 1 :=
    ExactScalar.cosine_sine
  unfold Vec3.dot at unit
  simp only [IsUnit, turning, Vec3.scale, Vec3.dot]
  linear_combination circle (Scalar.half * angle) +
    Scalar.sine (Scalar.half * angle) * Scalar.sine (Scalar.half * angle) * unit

theorem rotate_turning (axis : Vec3 α) (angle : α) : (turning axis angle).rotate axis = axis :=
  rotate_scale _ _ axis

end Rotor

/-! ## Frames -/

namespace Turtle

def direction (turtle : Turtle α) : Axis → Vec3 α
  | .heading => turtle.heading
  | .left => turtle.left
  | .up => turtle.up

def rotated (turtle : Turtle α) (rotor : Rotor α) : Turtle α :=
  { turtle with
    heading := rotor.rotate turtle.heading
    left := rotor.rotate turtle.left
    up := rotor.rotate turtle.up }

/-- The directions are perpendicular unit vectors, of which two determine the third. -/
structure Orthonormal (turtle : Turtle α) : Prop where
  unit (axis : Axis) : (turtle.direction axis).dot (turtle.direction axis) = 1
  heading_left : turtle.heading.dot turtle.left = 0
  left_up : turtle.left.dot turtle.up = 0
  up_heading : turtle.up.dot turtle.heading = 0
  handed : turtle.left.cross turtle.heading = turtle.up

namespace Orthonormal

theorem initial : (Turtle.initial : Turtle α).Orthonormal := by
  constructor
  case unit => intro axis; cases axis <;> simp [direction, Turtle.initial, Vec3.dot]
  all_goals simp [Turtle.initial, Vec3.dot, Vec3.cross]

variable {turtle : Turtle α}

theorem rotated (orthonormal : turtle.Orthonormal) {rotor : Rotor α} (unit : rotor.IsUnit) :
    (turtle.rotated rotor).Orthonormal where
  unit axis := by
    have kept := unit.dot_rotate (turtle.direction axis) (turtle.direction axis)
    rw [orthonormal.unit] at kept
    cases axis <;> exact kept
  heading_left := (unit.dot_rotate _ _).trans orthonormal.heading_left
  left_up := (unit.dot_rotate _ _).trans orthonormal.left_up
  up_heading := (unit.dot_rotate _ _).trans orthonormal.up_heading
  handed := (unit.cross_rotate _ _).trans (congrArg rotor.rotate orthonormal.handed)

/-- The axis of a turn would not move if it were rotated with the other two directions. -/
theorem turn_eq (orthonormal : turtle.Orthonormal) (axis : Axis) (angle : α) :
    turtle.turn axis angle = .ok (turtle.rotated (.turning (turtle.direction axis) angle)) := by
  have about := Rotor.about_eq (orthonormal.unit axis) angle
  have fixed := Rotor.rotate_turning (turtle.direction axis) angle
  cases axis <;>
    · simp only [direction] at about fixed ⊢
      rw [turn, about, Except.map, Turtle.rotated, fixed]

theorem turn (orthonormal : turtle.Orthonormal) (axis : Axis) (angle : α) :
    ∃ turned, turtle.turn axis angle = .ok turned ∧ turned.Orthonormal :=
  ⟨_, orthonormal.turn_eq axis angle,
    orthonormal.rotated (Rotor.isUnit_turning (orthonormal.unit axis) angle)⟩

theorem turnAll (orthonormal : turtle.Orthonormal) (turns : List (Axis × α)) :
    ∃ turned, turns.foldlM (fun turtle turn => turtle.turn turn.1 turn.2) turtle = .ok turned ∧
      turned.Orthonormal := by
  induction turns generalizing turtle with
  | nil => exact ⟨turtle, rfl, orthonormal⟩
  | cons first rest ih =>
      obtain ⟨middle, turns, stays⟩ := orthonormal.turn first.1 first.2
      rw [List.foldlM_cons, turns]
      exact ih stays

/-- The frame does not depend on where the turtle stands. -/
theorem moved (orthonormal : turtle.Orthonormal) (position : Vec3 α) (depth : Nat) :
    Orthonormal { turtle with position := position, depth := depth } :=
  ⟨orthonormal.unit, orthonormal.heading_left, orthonormal.left_up, orthonormal.up_heading,
    orthonormal.handed⟩

/-- A step along the heading has the length of the step. -/
theorem dot_advance (orthonormal : turtle.Orthonormal) (step : α) :
    let way := (turtle.advance step).position - turtle.position
    way.dot way = step * step := by
  have unit : turtle.heading.dot turtle.heading = 1 := orthonormal.unit .heading
  have way : (turtle.advance step).position - turtle.position = turtle.heading.scale step := by
    ext <;> exact add_sub_cancel_left _ _
  unfold Vec3.dot at unit
  simp only [way, Vec3.dot, Vec3.scale]
  linear_combination step * step * unit

end Orthonormal

end Turtle

/-! ## Courses and sketches -/

namespace Course

/-- The turtle and all saved turtles keep their frames, and with each a parent is saved. -/
structure Framed (course : Course α) : Prop where
  turtle : course.trail.turtle.Orthonormal
  saved : ∀ turtle ∈ course.trail.saved, turtle.Orthonormal
  matched : course.savedParents.length = course.trail.saved.length

namespace Framed

variable {course : Course α}

theorem initial : (Course.initial : Course α).Framed :=
  ⟨.initial, fun _ member => (nomatch member), rfl⟩

theorem moveTo (framed : course.Framed) (id : String) (step : α) :
    (course.moveTo id step).Framed :=
  ⟨framed.turtle.moved _ _, framed.saved, framed.matched⟩

theorem turn (framed : course.Framed) (axis : Axis) (angle : α) :
    ∃ next, course.turn axis angle = .ok next ∧ next.Framed := by
  obtain ⟨turned, turns, stays⟩ := framed.turtle.turn axis angle
  exact ⟨_, map_eq_ok_iff.mpr ⟨turned, turns, rfl⟩, stays, framed.saved, framed.matched⟩

theorem steer (framed : course.Framed) (angle : α) (command : Command) :
    ∃ next, course.steer angle command = .ok next ∧ next.Framed := by
  cases command with
  | draw => exact ⟨course, rfl, framed⟩
  | turn axis opposite => exact framed.turn axis _
  | turnBack => exact framed.turn .up _
  | opening =>
      refine ⟨course.openBracket, rfl, framed.turtle.moved _ _, ?_, congrArg Nat.succ framed.matched⟩
      exact List.forall_mem_cons.mpr ⟨framed.turtle, framed.saved⟩
  | closing =>
      obtain ⟨⟨turtle, saved⟩, parent, savedParents⟩ := course
      obtain ⟨_, savedFrames, matched⟩ := framed
      cases saved with
      | nil => exact ⟨_, rfl, ‹_›, savedFrames, matched⟩
      | cons savedTurtle saved =>
          cases savedParents with
          | nil => cases matched
          | cons savedParent savedParents =>
              obtain ⟨frame, others⟩ := List.forall_mem_cons.mp savedFrames
              exact ⟨_, rfl, frame, others, Nat.succ.inj matched⟩

end Framed

end Course

/-- A sketch all of whose turtles keep their frames and all of whose strokes have the length of the
step. -/
structure Sketch.Even (step : α) (sketch : Sketch α) : Prop where
  framed : sketch.course.Framed
  even : ∀ stroke ∈ sketch.strokes, stroke.segment.squaredLength = step * step

namespace Sketch.Even

variable {step : α} {sketch : Sketch α}

theorem initial : Even step (Sketch.initial : Sketch α) :=
  ⟨.initial, fun _ member => (nomatch member)⟩

theorem draw (even : sketch.Even step) : (sketch.draw step).Even step := by
  refine ⟨even.framed.moveTo _ step, ?_⟩
  intro stroke member
  rcases List.mem_append.mp member with old | new
  · exact even.even stroke old
  · rw [List.mem_singleton.mp new]
    exact even.framed.turtle.dot_advance step

theorem read (even : sketch.Even step) (angle : α) (token : String) :
    ∃ next, sketch.read angle step token = .ok next ∧ next.Even step := by
  rw [Sketch.read]
  split
  · exact ⟨_, rfl, even.draw⟩
  · split
    · exact ⟨sketch, rfl, even⟩
    · next command _ =>
      obtain ⟨course, steered, framed⟩ := even.framed.steer angle command
      exact ⟨_, map_eq_ok_iff.mpr ⟨course, steered, rfl⟩, framed, even.even⟩

theorem readAll (even : sketch.Even step) (angle : α) (tokens : List String) :
    ∃ next, sketch.readAll angle step tokens = .ok next ∧ next.Even step := by
  induction tokens generalizing sketch with
  | nil => exact ⟨sketch, rfl, even⟩
  | cons token rest ih =>
      obtain ⟨middle, first, stays⟩ := even.read angle token
      rw [Sketch.readAll, first]
      exact ih stays

end Sketch.Even

theorem Drawing.exists_even_tree (angle step : α) (tokens : List String) :
    ∃ tree, Drawing.tree angle step (Command.ofTokens tokens) = .ok tree ∧ tree.DistinctIds ∧
      ∀ branch ∈ tree.descendants, branch.segment.squaredLength = step * step := by
  have start : Sketch.Even step (Sketch.initial : Sketch α) := .initial
  obtain ⟨sketch, readTokens, reached⟩ := start.readAll angle tokens
  obtain ⟨tree, grown, segments⟩ := (Shoot.agree_readAll angle step tokens).exists_left readTokens
  obtain ⟨shoot, obeyed, rfl⟩ := map_eq_ok_iff.mp grown
  have sound := Shoot.Sound.initial.obeyAll obeyed
  refine ⟨_, (Drawing.tree_eq angle step _).trans grown, sound.named.distinctIds, ?_⟩
  intro branch member
  rw [Branch.traverse_eq_descendants, List.map_cons] at segments
  have listed := List.mem_map_of_mem (f := Branch.segment) member
  rw [(List.cons.inj segments).2] at listed
  obtain ⟨stroke, strokeMember, same⟩ := List.mem_map.mp listed
  rw [← same]
  exact reached.even stroke strokeMember

/-- However a turtle turns, its directions stay perpendicular unit vectors, and no turn is refused.
So every sequence of tokens draws a tree, with one segment of the length of the step for
each token that draws. -/
theorem Drawing.tree_equalSteps :
    (∀ turns : List (Axis × α), ∃ turtle,
      turns.foldlM (fun turtle turn => turtle.turn turn.1 turn.2) Turtle.initial = .ok turtle ∧
        turtle.Orthonormal) ∧
    ∀ (angle step : α) (tokens : List String), ∃ tree,
      Drawing.tree angle step (Command.ofTokens tokens) = .ok tree ∧
        (∀ branch ∈ tree.descendants, branch.segment.squaredLength = step * step) ∧
        (Statistics.ofTree tree).totalLength = tokens.count "F" * |step| := by
  refine ⟨fun turns => Turtle.Orthonormal.initial.turnAll turns, fun angle step tokens => ?_⟩
  have start : Sketch.Even step (Sketch.initial : Sketch α) := .initial
  obtain ⟨sketch, readTokens, reached⟩ := start.readAll angle tokens
  obtain ⟨tree, grown, segments⟩ := (Shoot.agree_readAll angle step tokens).exists_left readTokens
  rw [Branch.traverse_eq_descendants, List.map_cons] at segments
  have drawn := (List.cons.inj segments).2
  have count : tree.descendants.length = tokens.count "F" := by
    have sizes := congrArg List.length drawn
    rw [List.length_map, List.length_map, Sketch.length_readAll readTokens] at sizes
    exact sizes.trans (Nat.zero_add _)
  have even : ∀ branch ∈ tree.descendants, branch.segment.squaredLength = step * step := by
    intro branch member
    have listed := List.mem_map_of_mem (f := Branch.segment) member
    rw [drawn] at listed
    obtain ⟨stroke, strokeMember, same⟩ := List.mem_map.mp listed
    rw [← same]
    exact reached.even stroke strokeMember
  refine ⟨tree, (Drawing.tree_eq angle step _).trans grown, even, ?_⟩
  rw [Branch.totalLength_ofTree, Branch.lengthOf_eq_mul fun branch member =>
    Segment.length_of_squaredLength (even branch member), count]

end Topiary
