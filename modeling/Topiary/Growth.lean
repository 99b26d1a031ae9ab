import Topiary.Drawing.Basic
import Topiary.Grammar.Expansion
import Topiary.Settings

set_option autoImplicit false

/-!
# Growth

A tree grows from a grammar in two stages: the grammar is expanded, and the turtle
draws the result. The length of the expansion is checked against a limit before the
text is written.
-/

namespace Topiary

/-- The angle in radians and the step of a drawing, from an angle in degrees and a step. The
angle is checked first. -/
def drawingParameters (angle step : Value) : Except Fault (Float × Float) :=
  match finiteParameter "angle_deg" angle with
  | .error fault => .error fault
  | .ok degrees =>
    (finiteParameter "step" step).map fun length => (degrees * Scalar.degree, length)

def drawTree (commands : List Command) (angle step : Value) : Except Fault (Branch Float) :=
  match drawingParameters angle step with
  | .error fault => .error fault
  | .ok (radians, length) => Drawing.treeOfFloats radians length commands

/-- The tree that a value draws whose parts are tokens. The tokens are looked at last. -/
def drawValue (tokens angle step : Value) : Except Fault (Branch Float) :=
  match drawingParameters angle step with
  | .error fault => .error fault
  | .ok (radians, length) =>
    match Command.ofValue tokens with
    | .error fault => .error fault
    | .ok commands => Drawing.treeOfFloats radians length commands

structure Recipe where
  grammar : Grammar
  iterations : Value
  angle : Value
  step : Value

namespace Recipe

def standardLimit : Value :=
  .int Settings.standard.maxSymbols

/-- Checks the length of an expansion against a limit. A length that exceeds the limit is part
of the fault together with the iterations and the limit, as far as all of these can be written
out. -/
def checkLength (size : Value) (iterations : Nat) (limit : Value) : Except Fault Unit :=
  match size.exceeds? limit with
  | none => .error .unordered
  | some false => .ok ()
  | some true =>
    if size.isWritable && isWritable iterations && limit.isWritable then
      .error (.growthLimit size iterations limit)
    else .error .tooManyDigits

/-- The full tree of a recipe. The iterations are checked first, then the length of the
expansion, then the angle and the step. -/
def grow (recipe : Recipe) (limit : Option Value) : Except Fault (Branch Float) :=
  match generations recipe.iterations with
  | .error fault => .error fault
  | .ok count =>
    match recipe.grammar.lengthAfter count with
    | .error fault => .error fault
    | .ok size =>
      match checkLength size count (limit.getD standardLimit) with
      | .error fault => .error fault
      | .ok _ =>
        match recipe.grammar.symbolsAfter count with
        | .error fault => .error fault
        | .ok symbols => drawTree (Command.ofSymbols symbols) recipe.angle recipe.step

/-- All parts of a recipe, with the rules in ascending order of their keys. Rules that are no
dictionary have no such order, nor have keys of different kinds. -/
def key (recipe : Recipe) : Except Fault Value :=
  recipe.grammar.sortedRules.map fun rules =>
    .list [
      recipe.grammar.startValue,
      .list (rules.map fun (key, replacement) => .list [key, replacement]),
      recipe.iterations, recipe.angle, recipe.step]

/-- Whether two recipes are the same up to the kind of their numbers and the order of their
rules. A non-number in a rule is the same as itself. -/
def agrees (left right : Recipe) : Bool :=
  match left.key, right.key with
  | .ok leftKey, .ok rightKey => leftKey.agreesWith true rightKey
  | _, _ => false

end Recipe

end Topiary
