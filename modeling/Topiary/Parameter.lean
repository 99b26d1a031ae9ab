import Topiary.Fault

set_option autoImplicit false

/-!
# Parameters

What a parameter of any kind gives where a number, a point, a sequence or the text of
a whole number is wanted, and how it fails to give one.
-/

namespace Topiary

namespace Value

/-! ## Numbers -/

/-- The number in a computation. A text is none, whatever it spells. -/
def asNumber (value : Value) : Except Fault Float :=
  match value with
  | .text _ => .error (.notANumber value)
  | _ =>
    match value.toReal with
    | .real number => .ok number
    | .notReal => .error (.notANumber value)
    | .beyondRange => .error .beyondRange

def asReal (value : Value) : Except Fault Float :=
  match value.toReal with
  | .real number => .ok number
  | .beyondRange => .error .beyondRange
  | .notReal =>
    match value with
    | .text _ => .error (.unreadableReal value)
    | _ => .error (.notANumber value)

/-- A component of a direction. An absent one is a non-number. -/
def asComponent (value : Value) : Except Fault Float :=
  match value with
  | .null => .ok (0.0 / 0.0)
  | _ => value.asReal

/-- The components of a direction. A single number is a direction of one component. -/
def asComponents (value : Value) : Except Fault (List Float) :=
  match value with
  | .list items => items.mapM asComponent
  | _ => value.asComponent.map fun component => [component]

/-! ## Arithmetic -/

/-- A computation with two numbers: exact for whole numbers, and rounded where one is real. -/
def combine (whole : Int → Int → Int) (real : Float → Float → Float) (left right : Value) :
    Except Fault Value :=
  match left.number?, right.number? with
  | some (.whole a), some (.whole b) => .ok (.int (whole a b))
  | none, _ => .error (.notANumber left)
  | _, none => .error (.notANumber right)
  | some _, some _ =>
    match left.asReal, right.asReal with
    | .ok a, .ok b => .ok (.real (real a b))
    | .error fault, _ => .error fault
    | _, .error fault => .error fault

def plus : Value → Value → Except Fault Value :=
  combine (· + ·) (· + ·)

def times : Value → Value → Except Fault Value :=
  combine (· * ·) (· * ·)

/-! ## Sequences -/

def asParts (value : Value) : Except Fault (List Value) :=
  match value.parts? with
  | some parts => .ok parts
  | none => .error (.notASequence value)

end Value

def finiteParameter (name : String) (value : Value) : Except Fault Float :=
  match value.toReal with
  | .real number => if number.isFinite then .ok number else .error (.notFinite name number)
  | .notReal => .error (.notReal name value)
  | .beyondRange => .error .beyondRange

/-! ## Whole numbers as texts -/

/-- Whole numbers are written with up to this number of digits. -/
def digitLimit : Nat := 4300

def isWritable (number : Nat) : Bool :=
  (toString number).length ≤ digitLimit

/-- Only whole numbers can have too many digits. -/
def Value.isWritable (value : Value) : Bool :=
  match value with
  | .int number => Topiary.isWritable number.natAbs
  | _ => true

def writtenOut (number : Value) : Except Fault String :=
  if number.isWritable then .ok number.plain else .error .tooManyDigits

end Topiary
