import Topiary.Geometry.Rotor

set_option autoImplicit false

/-!
# The turtle

A turtle has a position and three directions that are perpendicular to one another:
its heading, its left side and its up side. It turns about one of the three, which
moves the other two. Where it stood when a bracket opened is kept in a trail.
-/

namespace Topiary

inductive Axis where
  | heading
  | left
  | up
  deriving Repr, DecidableEq

def Axis.ofName? (name : String) : Option Axis :=
  if name = "up" then some .up
  else if name = "left" then some .left
  else if name = "heading" then some .heading
  else none

structure Turtle (α : Type) where
  position : Vec3 α
  heading : Vec3 α
  left : Vec3 α
  up : Vec3 α
  depth : Nat
  deriving Repr, BEq, DecidableEq

namespace Turtle

variable {α : Type}

/-- A turtle at the origin that looks along the second axis of space. -/
def initial [Scalar α] : Turtle α :=
  ⟨Vec3.origin, ⟨Scalar.zero, Scalar.one, Scalar.zero⟩, ⟨Scalar.one, Scalar.zero, Scalar.zero⟩,
    ⟨Scalar.zero, Scalar.zero, Scalar.one⟩, 0⟩

/-- Turns about one direction by an angle in radians: the other two move. -/
@[specialize] def turn [Scalar α] (turtle : Turtle α) (axis : Axis) (angle : α) :
    Except Fault (Turtle α) :=
  match axis with
  | .up => (Rotor.about turtle.up.toList angle).map fun rotor =>
      { turtle with heading := rotor.rotate turtle.heading, left := rotor.rotate turtle.left }
  | .left => (Rotor.about turtle.left.toList angle).map fun rotor =>
      { turtle with heading := rotor.rotate turtle.heading, up := rotor.rotate turtle.up }
  | .heading => (Rotor.about turtle.heading.toList angle).map fun rotor =>
      { turtle with left := rotor.rotate turtle.left, up := rotor.rotate turtle.up }

/-- Turns about the direction that a parameter names, by an angle that another one gives. The
name is looked at first. -/
def turnGiven (turtle : Turtle Float) (axis angle : Value) : Except Fault (Turtle Float) :=
  match axis with
  | .text name =>
    match Axis.ofName? name with
    | none => .error (.unknownAxis name)
    | some direction =>
      match angle.asNumber with
      | .ok radians => turtle.turn direction radians
      | .error fault => .error fault
  | _ => .error (.unknownAxis axis.plain)

@[inline] def advance [Add α] [Mul α] (turtle : Turtle α) (step : α) : Turtle α :=
  { turtle with position := turtle.position + turtle.heading.scale step }

def advanceGiven (turtle : Turtle Float) (step : Value) : Except Fault (Turtle Float) :=
  step.asNumber.map turtle.advance

end Turtle

/-- A turtle and the turtles that were saved, the latest first. -/
structure Trail (α : Type) where
  turtle : Turtle α
  saved : List (Turtle α)

namespace Trail

variable {α : Type}

def initial [Scalar α] : Trail α :=
  ⟨Turtle.initial, []⟩

def save (trail : Trail α) : Trail α :=
  ⟨{ trail.turtle with depth := trail.turtle.depth + 1 }, trail.turtle :: trail.saved⟩

/-- Returns to the turtle saved last. With nothing saved, nothing happens. -/
def restore (trail : Trail α) : Trail α :=
  match trail.saved with
  | [] => trail
  | turtle :: saved => ⟨turtle, saved⟩

end Trail

end Topiary
