import Topiary.Branch.Basic
import Topiary.Drawing.Command

set_option autoImplicit false

/-!
# The course of a drawing

Each drawn segment grows from the segment drawn before it on the same way. A course
is where a drawing stands: its turtle, the id of the segment that it draws from, and
both as they were at every open bracket. A closing bracket returns to what was saved
last, and one without a partner is ignored.
-/

namespace Topiary

structure Course (α : Type) where
  trail : Trail α
  parent : String
  savedParents : List String

namespace Course

variable {α : Type}

def initial [Scalar α] : Course α :=
  ⟨Trail.initial, rootId, []⟩

@[inline] def nextSegment [Add α] [Mul α] (course : Course α) (position : Nat) (step : α) :
    Segment α :=
  { id := idOfChild course.parent position
    parentId := .text course.parent
    start := course.trail.turtle.position
    finish := (course.trail.turtle.advance step).position
    depth := course.trail.turtle.depth }

@[inline] def moveTo [Add α] [Mul α] (course : Course α) (id : String) (step : α) : Course α :=
  { course with
    trail := { course.trail with turtle := course.trail.turtle.advance step }
    parent := id }

@[inline] def turn [Scalar α] (course : Course α) (axis : Axis) (angle : α) :
    Except Fault (Course α) :=
  (course.trail.turtle.turn axis angle).map fun turtle =>
    { course with trail := { course.trail with turtle := turtle } }

def openBracket (course : Course α) : Course α :=
  { course with
    trail := course.trail.save
    savedParents := course.parent :: course.savedParents }

/-- Closes the innermost open bracket. Without an open bracket nothing happens. -/
def closeBracket (course : Course α) : Except Fault (Course α) :=
  match course.trail.saved with
  | [] => .ok course
  | _ :: _ =>
    match course.savedParents with
    | [] => .error .noSavedParent
    | parent :: rest =>
      .ok { trail := course.trail.restore, parent := parent, savedParents := rest }

@[specialize] def steer [Scalar α] (angle : α) (course : Course α) (command : Command) :
    Except Fault (Course α) :=
  match command with
  | .draw => .ok course
  | .turn axis opposite => course.turn axis (if opposite then -angle else angle)
  | .turnBack => course.turn .up Scalar.straight
  | .opening => .ok course.openBracket
  | .closing => course.closeBracket

end Course

end Topiary
