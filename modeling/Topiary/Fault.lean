import Topiary.Value

set_option autoImplicit false

/-!
# Causes of failure

Every way in which an operation can fail, and the text that reports it.
-/

namespace Topiary

inductive Fault where
  | iterationsNotWhole (given : Value)
  | iterationsNegative (count : Int)
  | notReal (name : String) (given : Value)
  | notFinite (name : String) (number : Float)
  | beyondRange
  | outOfRange (name : String) (low high given : Value)
  | boundsMissing (count : Nat)
  | boundsInExcess
  | unordered
  | notANumber (given : Value)
  /-- A text that should spell a real number does not. -/
  | unreadableReal (given : Value)
  | notASequence (given : Value)
  | notAText (given : Value)
  | notADictionary (given : Value)
  | notASet (given : Value)
  /-- A dictionary cannot be made from parts that are no pairs. -/
  | notAPair (position size : Nat)
  | tooManyDigits
  | axisWithoutLength
  | axisTooShort
  | unknownAxis (name : String)
  | growthLimit (size : Value) (iterations : Nat) (limit : Value)
  | unknownSpecies (id : Value)
  | notAKey (given : Value)
  | unknownSegment (id : String)
  | noSavedParent
  | wrongFields
  deriving Inhabited

namespace Fault

def message : Fault → String
  | iterationsNotWhole given => "iterations must be an integer, got " ++ given.literal
  | iterationsNegative count => "iterations must be >= 0, got " ++ toString count
  | notReal name given => name ++ " must be a real number, got " ++ given.literal
  | notFinite name number => name ++ " must be finite, got " ++ (Value.real number).plain
  | beyondRange => "int too large to convert to float"
  | outOfRange name low high given =>
    name ++ " must be in [" ++ low.plain ++ ", " ++ high.plain ++ "], got " ++ given.plain
  | boundsMissing count =>
    "not enough values to unpack (expected 2, got " ++ toString count ++ ")"
  | boundsInExcess => "too many values to unpack (expected 2)"
  | unordered => "values of these kinds have no order"
  | notANumber given => given.literal ++ " is no number"
  | unreadableReal given => "could not convert string to float: " ++ given.literal
  | notASequence given => given.literal ++ " has no parts"
  | notAText given => given.literal ++ " is no text"
  | notADictionary given => given.literal ++ " is no dictionary"
  | notASet given => given.literal ++ " is no set"
  | notAPair position size =>
    "dictionary update sequence element #" ++ toString position ++ " has length " ++
      toString size ++ "; 2 is required"
  | tooManyDigits =>
    "Exceeds the limit (4300 digits) for integer string conversion; " ++
      "use sys.set_int_max_str_digits() to increase the limit"
  | axisWithoutLength => "Rotation axis has zero length"
  | axisTooShort => "Rotation axis has fewer than three components"
  | unknownAxis name => "Unknown rotation axis: " ++ name
  | growthLimit size iterations limit =>
    "Grammar expands to " ++ size.plain ++ " symbols after " ++ toString iterations ++
      " iterations (limit " ++ limit.plain ++ "). Reduce iterations."
  | unknownSpecies id => id.literal
  | notAKey given => given.literal ++ " cannot serve as a key"
  | unknownSegment id => Text.quoted id
  | noSavedParent => "pop from empty list"
  | wrongFields => "fields do not match"

end Fault

end Topiary
