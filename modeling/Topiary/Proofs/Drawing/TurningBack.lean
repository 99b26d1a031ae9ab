import Topiary.Proofs.Drawing.Frames
import Topiary.Proofs.Drawing.Brackets
import Topiary.Proofs.Geometry.Composition

set_option autoImplicit false

/-!
# Turning back

A turn and the opposite one, or two half turns, lead back to the turtle they began with:
the axis stays where it is, and about one axis the second rotation takes the first one
back. So two such commands can be left out of a sequence wherever they stand.
-/

namespace Topiary

/-- Exact arithmetic in which opposite angles lie mirrored on the unit circle and a half turn has a
right half angle. -/
class MirroredScalar (α : Type) extends ExactScalar α where
  cosine_neg (angle : α) : cosine (-angle) = cosine angle
  sine_neg (angle : α) : sine (-angle) = -sine angle
  cosine_straight : cosine (Scalar.half * straight) = 0
  sine_straight : sine (Scalar.half * straight) = 1

noncomputable instance : MirroredScalar ℝ where
  cosine_neg := Real.cos_neg
  sine_neg := Real.sin_neg
  cosine_straight := by
    change Real.cos (1 / 2 * Real.pi) = 0
    rw [one_div_mul_eq_div, Real.cos_pi_div_two]
  sine_straight := by
    change Real.sin (1 / 2 * Real.pi) = 1
    rw [one_div_mul_eq_div, Real.sin_pi_div_two]

instance : MirroredScalar ℚ where
  cosine_neg angle := by
    change (1 - -angle * -angle) / (1 + -angle * -angle) =
      (1 - angle * angle) / (1 + angle * angle)
    rw [neg_mul_neg]
  sine_neg angle := by
    change 2 * -angle / (1 + -angle * -angle) = -(2 * angle / (1 + angle * angle))
    rw [neg_mul_neg, mul_neg, neg_div]
  cosine_straight := by decide +kernel
  sine_straight := by decide +kernel

variable {α : Type} [MirroredScalar α]

/-! ## Angles -/

namespace Rotor

/-- Rotations by the second angle take back the rotations by the first one about the same axis. -/
def TakesBack (angle back : α) : Prop :=
  ∀ axis : Vec3 α, axis.dot axis = 1 →
    ∀ v, (turning axis back).rotate ((turning axis angle).rotate v) = v

theorem turning_neg (axis : Vec3 α) (angle : α) :
    turning axis (-angle) = (turning axis angle).reversed := by
  have half : (Scalar.half : α) * -angle = -(Scalar.half * angle) := mul_neg _ _
  have cosine : Scalar.cosine (-(Scalar.half * angle)) = Scalar.cosine (Scalar.half * angle) :=
    MirroredScalar.cosine_neg _
  have sine : Scalar.sine (-(Scalar.half * angle)) = -Scalar.sine (Scalar.half * angle) :=
    MirroredScalar.sine_neg _
  rw [turning, half, cosine, sine]
  simp [turning, reversed, Vec3.scale, Vec3.map]

theorem turning_straight (axis : Vec3 α) : turning axis Scalar.straight = ⟨0, axis⟩ := by
  have cosine : Scalar.cosine ((Scalar.half : α) * Scalar.straight) = 0 :=
    MirroredScalar.cosine_straight
  have sine : Scalar.sine ((Scalar.half : α) * Scalar.straight) = 1 :=
    MirroredScalar.sine_straight
  rw [turning, cosine, sine]
  simp [Vec3.scale]

theorem takesBack_neg (angle : α) : TakesBack angle (-angle) := by
  intro axis unit v
  rw [turning_neg]
  exact (isUnit_turning unit angle).rotate_reversed v

theorem takesBack_of_neg (angle : α) : TakesBack (-angle) angle := by
  have back := takesBack_neg (-angle)
  rwa [neg_neg] at back

theorem takesBack_straight : TakesBack (Scalar.straight : α) Scalar.straight := by
  intro axis unit v
  have halfTurn := isUnit_turning unit Scalar.straight
  rw [turning_straight] at halfTurn ⊢
  rw [← rotate_reversed_of_halfTurn axis]
  exact halfTurn.rotate_reversed v

end Rotor

/-! ## Turtles and courses -/

variable {angle back : α}

theorem Turtle.Orthonormal.turn_back {turtle : Turtle α} (orthonormal : turtle.Orthonormal)
    (takesBack : Rotor.TakesBack angle back) (axis : Axis) :
    ((turtle.turn axis angle).bind fun turned => turned.turn axis back) = .ok turtle := by
  have unit := orthonormal.unit axis
  have fixed := Rotor.rotate_turning (turtle.direction axis) angle
  have turned := orthonormal.rotated (Rotor.isUnit_turning unit angle)
  -- The second turn is about the turned axis, which is the axis of the first one.
  have sameAxis : (turtle.rotated (.turning (turtle.direction axis) angle)).direction axis =
      turtle.direction axis := by
    cases axis <;> exact fixed
  rw [orthonormal.turn_eq axis angle, Except.bind, turned.turn_eq axis back, sameAxis]
  simp only [Turtle.rotated, takesBack _ unit]

theorem Course.Framed.turn_back {course : Course α} (framed : course.Framed)
    (takesBack : Rotor.TakesBack angle back) (axis : Axis) :
    ((course.turn axis angle).bind fun turned => turned.turn axis back) = .ok course := by
  have turtleBack := framed.turtle.turn_back takesBack axis
  obtain ⟨turned, turns, -⟩ := framed.turtle.turn axis angle
  rw [turns] at turtleBack
  rw [Course.turn, turns]
  exact congrArg
    (Except.map fun turtle => { course with trail := { course.trail with turtle := turtle } })
    turtleBack

/-! ## Drawings -/

def turnsAndBack : List (List String) :=
  [["+", "-"], ["-", "+"], ["&", "^"], ["^", "&"], ["\\", "/"], ["/", "\\"], ["|", "|"]]

theorem Command.obeyAll_pair {σ : Type} (obey : σ → Command → Except Fault σ) (state : σ)
    (first second : Command) :
    obeyAll obey state [first, second] =
      (obey state first).bind fun next => obey next second := by
  simp only [obeyAll]
  cases obey state first with
  | error fault => rfl
  | ok next =>
      simp only [Except.bind]
      cases obey next second <;> rfl

theorem Course.Framed.steerAll_back {course : Course α} (framed : course.Framed) (angle : α)
    {word : List String} (member : word ∈ turnsAndBack) :
    Command.obeyAll (Course.steer angle) course (Command.ofTokens word) = .ok course := by
  have pair := Command.obeyAll_pair (Course.steer angle) course
  simp only [turnsAndBack, List.mem_cons, List.not_mem_nil, or_false] at member
  rcases member with rfl | rfl | rfl | rfl | rfl | rfl | rfl
  · exact (pair _ _).trans (framed.turn_back (Rotor.takesBack_neg angle) .up)
  · exact (pair _ _).trans (framed.turn_back (Rotor.takesBack_of_neg angle) .up)
  · exact (pair _ _).trans (framed.turn_back (Rotor.takesBack_neg angle) .left)
  · exact (pair _ _).trans (framed.turn_back (Rotor.takesBack_of_neg angle) .left)
  · exact (pair _ _).trans (framed.turn_back (Rotor.takesBack_neg angle) .heading)
  · exact (pair _ _).trans (framed.turn_back (Rotor.takesBack_of_neg angle) .heading)
  · exact (pair _ _).trans (framed.turn_back Rotor.takesBack_straight .up)

/-- Commands that draw nothing steer the course and leave the rest of a drawing alone. -/
theorem Drawing.obeyAll_undrawn {β : Type} [Scalar β] {angle step : β} {commands : List Command}
    (undrawn : .draw ∉ commands) (drawing : Drawing β) :
    Command.obeyAll (Drawing.obey angle step) drawing commands =
      (Command.obeyAll (Course.steer angle) drawing.course commands).map drawing.follow := by
  induction commands generalizing drawing with
  | nil => rfl
  | cons command rest ih =>
      obtain ⟨silent, restSilent⟩ := List.ne_and_not_mem_of_not_mem_cons undrawn
      rw [Command.obeyAll, Command.obeyAll, Drawing.obey_eq, Course.obey_of_ne_draw silent.symm]
      cases drawing.course.steer angle command with
      | error fault => rfl
      | ok course => exact ih restSilent (drawing.follow course)

theorem Drawing.exists_framed_after (angle step : α) (tokens : List String) :
    ∃ drawing, Drawing.after angle step tokens = .ok drawing ∧ drawing.course.Framed := by
  have start : Sketch.Even step (Sketch.initial : Sketch α) := .initial
  obtain ⟨sketch, readTokens, reached⟩ := start.readAll angle tokens
  obtain ⟨drawing, ran, sameCourse⟩ :=
    (Drawing.agree_readAll angle step tokens).exists_left readTokens
  exact ⟨drawing, ran, sameCourse ▸ reached.framed⟩

theorem Drawing.after_turnsAndBack (angle step : α) {word : List String}
    (member : word ∈ turnsAndBack) (front back : List String) :
    Drawing.after angle step (front ++ word ++ back) =
      Drawing.after angle step (front ++ back) := by
  have undrawn : .draw ∉ Command.ofTokens word := by
    refine Command.draw_not_mem_ofTokens ?_
    revert word
    decide
  obtain ⟨drawing, ran, framed⟩ := Drawing.exists_framed_after angle step front
  have unchanged : Command.obeyAll (Drawing.obey angle step) drawing (Command.ofTokens word) =
      .ok drawing := by
    rw [Drawing.obeyAll_undrawn undrawn, framed.steerAll_back angle member]
    rfl
  have ranOn : Drawing.after angle step (front ++ word) = .ok drawing := by
    rw [Drawing.after_append, ran]
    exact unchanged
  rw [Drawing.after_append, ranOn, Drawing.after_append, ran]

/-- A turn and the one that takes it back can be left out wherever they stand: the tree that is drawn
without them is the same in every segment. -/
theorem Drawing.tree_turnsAndBack {word : List String} (member : word ∈ turnsAndBack)
    (angle step : α) (front back : List String) :
    ∃ tree,
      Drawing.tree angle step (Command.ofTokens (front ++ word ++ back)) = .ok tree ∧
        Drawing.tree angle step (Command.ofTokens (front ++ back)) = .ok tree := by
  have same := Drawing.after_turnsAndBack angle step member front back
  obtain ⟨tree, drawn, -⟩ := Drawing.exists_even_tree angle step (front ++ back)
  refine ⟨tree, ?_, drawn⟩
  rw [← drawn, Drawing.tree, Drawing.tree]
  rw [Drawing.after, Drawing.after] at same
  rw [same]

/-- A roll between two slanted segments, with a bracket around them. -/
theorem Drawing.tree_turnsAndBack_roll :
    ["/", "\\"] ∈ turnsAndBack ∧
      ∃ tree,
        Drawing.tree (1 : ℚ) 2
          (Command.ofTokens ["F", "[", "+", "F", "/", "\\", "&", "F", "]", "F"]) = .ok tree ∧
        Drawing.tree (1 : ℚ) 2
          (Command.ofTokens ["F", "[", "+", "F", "&", "F", "]", "F"]) = .ok tree := by
  have member : ["/", "\\"] ∈ turnsAndBack := by decide
  exact ⟨member,
    Drawing.tree_turnsAndBack member 1 2 ["F", "[", "+", "F"] ["&", "F", "]", "F"]⟩

end Topiary
