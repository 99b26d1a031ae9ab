import Topiary.Fault

set_option autoImplicit false

/-!
# Settings

The ranges of the parameters, their defaults and the limit of growth.
-/

namespace Topiary

structure Bounds where
  low : Value
  high : Value

namespace Bounds

def toList (bounds : Bounds) : List Value :=
  [bounds.low, bounds.high]

end Bounds

/-- Returns a parameter that lies between two bounds, both included. The upper bound is not
looked at if the lower one is not met. -/
def checkBounds (name : String) (value : Value) (bounds : List Value) : Except Fault Value :=
  match bounds with
  | [low, high] =>
    match low.atMost? value with
    | none => .error .unordered
    | some false => .error (.outOfRange name low high value)
    | some true =>
      match value.atMost? high with
      | none => .error .unordered
      | some false => .error (.outOfRange name low high value)
      | some true => .ok value
  | _ :: _ :: _ :: _ => .error .boundsInExcess
  | short => .error (.boundsMissing short.length)

structure Settings where
  appName : String
  appSubtitle : String
  version : String
  iterationsRange : Bounds
  angleRange : Bounds
  stepRange : Bounds
  thicknessRange : Bounds
  angleIncrement : Float
  stepIncrement : Float
  thicknessIncrement : Float
  defaultIterations : Int
  defaultAngle : Float
  defaultStep : Float
  defaultThickness : Float
  maxSymbols : Nat

namespace Settings

def standard : Settings where
  appName := "PruneCraft"
  appSubtitle := "L-system Tree Pruning Simulator"
  version := "0.1.0"
  iterationsRange := ⟨.int 1, .int 7⟩
  angleRange := ⟨.real 10.0, .real 45.0⟩
  stepRange := ⟨.real 0.5, .real 2.0⟩
  thicknessRange := ⟨.real 0.5, .real 2.5⟩
  angleIncrement := 0.5
  stepIncrement := 0.1
  thicknessIncrement := 0.1
  defaultIterations := 4
  defaultAngle := 22.5
  defaultStep := 1.0
  defaultThickness := 1.0
  maxSymbols := 2000000

def toValue (settings : Settings) : Value :=
  .dict [
    ("app_name", .text settings.appName),
    ("app_subtitle", .text settings.appSubtitle),
    ("version", .text settings.version),
    ("iterations_range", .list settings.iterationsRange.toList),
    ("angle_range", .list settings.angleRange.toList),
    ("step_range", .list settings.stepRange.toList),
    ("thickness_range", .list settings.thicknessRange.toList),
    ("angle_increment", .real settings.angleIncrement),
    ("step_increment", .real settings.stepIncrement),
    ("thickness_increment", .real settings.thicknessIncrement),
    ("default_iterations", .int settings.defaultIterations),
    ("default_angle", .real settings.defaultAngle),
    ("default_step", .real settings.defaultStep),
    ("default_thickness", .real settings.defaultThickness),
    ("max_symbols", .int settings.maxSymbols)]

end Settings

end Topiary
