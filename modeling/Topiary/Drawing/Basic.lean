import Topiary.Drawing.Arena
import Topiary.Drawing.Course

set_option autoImplicit false

/-!
# Drawing a tree

A turtle obeys commands one after another. The segments that it draws are collected in
an arena, and the tree is put together when the last command has been obeyed.
-/

namespace Topiary

structure Drawing (α : Type) where
  course : Course α
  arena : Arena α
  /-- The ids of all segments in the order in which they were drawn. -/
  order : Array String

namespace Drawing

variable {α : Type}

def initial [Scalar α] : Drawing α :=
  ⟨Course.initial, Arena.initial, #[rootId]⟩

@[inline] def follow (drawing : Drawing α) (course : Course α) : Drawing α :=
  { drawing with course := course }

/-- Draws one segment and moves to its end. A parent outside the arena is a fault. -/
@[inline] def draw [Add α] [Mul α] (drawing : Drawing α) (step : α) :
    Except Fault (Drawing α) :=
  match drawing.arena[drawing.course.parent]? with
  | none => .error (.unknownSegment drawing.course.parent)
  | some owner =>
    let segment := drawing.course.nextSegment owner.childIds.size step
    .ok {
      course := drawing.course.moveTo segment.id step
      arena := drawing.arena.add drawing.course.parent segment
      order := drawing.order.push segment.id }

@[specialize] def obey [Scalar α] (angle step : α) (drawing : Drawing α) (command : Command) :
    Except Fault (Drawing α) :=
  match command with
  | .draw => drawing.draw step
  | other => (drawing.course.steer angle other).map drawing.follow

@[specialize] def tree [Scalar α] (angle step : α) (commands : List Command) :
    Except Fault (Branch α) :=
  match Command.obeyAll (obey angle step) (initial : Drawing α) commands with
  | .error fault => .error fault
  | .ok drawing => drawing.arena.freeze drawing.order.toList

def treeOfFloats (angle step : Float) (commands : List Command) : Except Fault (Branch Float) :=
  tree angle step commands

end Drawing

end Topiary
