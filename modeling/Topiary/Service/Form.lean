import Topiary.Grammar.Rules
import Topiary.Parameter
import Topiary.Settings

set_option autoImplicit false

/-!
# Forms

A request brings a document, and a form says which fields it has to have. Fields are
read generously: whole numbers also from texts and from real numbers without a
fraction, real numbers also from texts. Every field that does not fit is reported, in
the order of the fields; fields that the form does not know are ignored.
-/

namespace Topiary.Service

inductive Defect where
  | notText
  | notWhole
  | unreadableWhole
  | oversizedWhole
  | fraction
  | notReal
  | unreadableReal
  | tooSmall
  | tooLarge
  | notDict
  | notList
  | missing
  | notObject
  deriving Repr, DecidableEq

def Defect.name : Defect → String
  | .notText => "string_type"
  | .notWhole => "int_type"
  | .unreadableWhole => "int_parsing"
  | .oversizedWhole => "int_parsing_size"
  | .fraction => "int_from_float"
  | .notReal => "float_type"
  | .unreadableReal => "float_parsing"
  | .tooSmall => "greater_than_equal"
  | .tooLarge => "less_than_equal"
  | .notDict => "dict_type"
  | .notList => "list_type"
  | .missing => "missing"
  | .notObject => "model_attributes_type"

inductive Step where
  | key (name : String)
  | position (index : Nat)
  deriving Repr, DecidableEq

structure Complaint where
  place : List Step
  defect : Defect
  deriving Repr, DecidableEq

/-- A field that has been read, or all that is wrong with it. -/
abbrev Checked (α : Type) := Except (List Complaint) α

namespace Checked

variable {α β : Type}

def both (first : Checked α) (second : Checked β) : Checked (α × β) :=
  match first, second with
  | .ok left, .ok right => .ok (left, right)
  | .ok _, .error complaints => .error complaints
  | .error complaints, .ok _ => .error complaints
  | .error complaints, .error more => .error (complaints ++ more)

def all : List (Checked α) → Checked (List α)
  | [] => .ok []
  | first :: rest => (both first (all rest)).map fun (value, values) => value :: values

def refuse (place : List Step) (defect : Defect) : Checked α :=
  .error [⟨place, defect⟩]

end Checked

/-! ## Whole numbers in texts -/

/-- Removes zeros in front of a number, together with underscores between them. A number that
begins with a minus sign is left as it is. -/
def dropLeadingZeros? (text : List Char) : Option (List Char) :=
  match text with
  | '0' :: rest =>
    match rest.dropWhile fun character => character == '0' || character == '_' with
    | [] => text.getLast?.map fun last => [last]
    | '.' :: fraction =>
      (text.take (text.length - fraction.length - 1)).getLast?.map fun last =>
        last :: '.' :: fraction
    | first :: more =>
      if first == '-' || ('1' ≤ first && first ≤ '9') then some (first :: more) else none
  | first :: _ => if first == '-' || ('1' ≤ first && first ≤ '9') then some text else none
  | [] => none

/-- Removes a point with nothing but zeros behind it, of which there has to be one at least. -/
def dropZeroFraction (text : List Char) : List Char :=
  match text.dropWhile (· != '.') with
  | _ :: '0' :: fraction => if fraction.all (· == '0') then text.takeWhile (· != '.') else text
  | _ => text

def hasDoubleUnderscore : List Char → Bool
  | '_' :: '_' :: _ => true
  | _ :: rest => hasDoubleUnderscore rest
  | [] => false

def dropUnderscores? (text : List Char) : Option (List Char) :=
  if text.head? == some '_' || text.getLast? == some '_' || hasDoubleUnderscore text then none
  else some (text.filter (· != '_'))

def splitMinus : List Char → Bool × List Char
  | '-' :: rest => (true, rest)
  | text => (false, text)

inductive WholeReading where
  | whole (number : Int)
  | unreadable
  | oversized

/-- A whole number without a plus sign and without zeros in front. A number that begins well but
has more characters than the limit is oversized, whatever follows. -/
def readStrictWhole (text : List Char) : WholeReading :=
  let (negative, digits) := splitMinus text
  let lead := digits.takeWhile Char.isDigit
  let signLength := if negative then 1 else 0
  match lead with
  | [] => .unreadable
  | '0' :: _ => if digits.length = 1 then .whole 0 else .unreadable
  | _ =>
    if digitLimit < lead.length + signLength then .oversized
    else if lead.length < digits.length then .unreadable
    else
      let size : Int := Numeral.digitsValue digits
      .whole (if negative then -size else size)

/-- A text with everything removed that a whole number may have beyond its digits: blanks around
it, a plus sign, zeros in front, a fraction of zeros and single underscores. -/
def tidyWhole? (text : List Char) : Option (List Char) := do
  let unsigned ← match Text.trimBlanks text with
    | '+' :: '-' :: _ => none
    | '+' :: rest => some rest
    | rest => some rest
  let (negative, digits) := splitMinus unsigned
  let significant := dropZeroFraction (← dropLeadingZeros? digits)
  let plain := (dropUnderscores? significant).getD significant
  return if negative then '-' :: plain else plain

/-- A whole number in a text. A text is read as it stands, and tidied only if that fails; a
number that is oversized only then is unreadable. -/
def readWhole (content : String) : WholeReading :=
  match readStrictWhole content.toList with
  | .unreadable =>
    match (tidyWhole? content.toList).map readStrictWhole with
    | some (.whole number) => .whole number
    | _ => .unreadable
  | reading => reading

/-! ## Fields -/

def textField (place : List Step) (value : Value) : Checked String :=
  match value with
  | .text content => .ok content
  | _ => .refuse place .notText

def wholeField (place : List Step) (value : Value) : Checked Int :=
  match value with
  | .int number => .ok number
  | .bool truth => .ok (if truth then 1 else 0)
  | .real number =>
    match Numeral.Binary.ofFloat? number with
    | none => .refuse place .fraction
    | some exact =>
      let (numerator, denominator) := exact.quotient
      if numerator % denominator != 0 then .refuse place .fraction
      else if Nat.pow 2 63 ≤ numerator / denominator then .refuse place .oversizedWhole
      else
        let size : Int := numerator / denominator
        .ok (if exact.negative then -size else size)
  | .text content =>
    match readWhole content with
    | .whole number => .ok number
    | .unreadable => .refuse place .unreadableWhole
    | .oversized => .refuse place .oversizedWhole
  | .null | .list _ | .dict _ => .refuse place .notWhole

def realField (place : List Step) (value : Value) : Checked Float :=
  match value with
  | .real number => .ok number
  | .bool truth => .ok (if truth then 1 else 0)
  | .int number =>
    match Numeral.nearestInt? number with
    | some nearest => .ok nearest
    | none => .refuse place .notReal
  | .text content =>
    let trimmed := Text.trimBlanks content.toList
    let reading := (Numeral.readReal? trimmed).orElse fun _ =>
      (dropUnderscores? content.toList).bind Numeral.readReal?
    match reading with
    | some number => .ok number
    | none => .refuse place .unreadableReal
  | .null | .list _ | .dict _ => .refuse place .notReal

/-- A number between two bounds, both included. The upper bound is looked at first, and a
non-number does not meet it. -/
def inBounds {α : Type} (place : List Step) (bounds : Bounds) (toValue : α → Value) (number : α) :
    Checked α :=
  if (toValue number).atMost? bounds.high != some true then .refuse place .tooLarge
  else if bounds.low.atMost? (toValue number) != some true then .refuse place .tooSmall
  else .ok number

def optionalField {α : Type} (read : List Step → Value → Checked α) (place : List Step)
    (value : Option Value) : Checked (Option α) :=
  match value with
  | none | some .null => .ok none
  | some value => (read place value).map some

def fieldOr {α : Type} (read : List Step → Value → Checked α) (place : List Step)
    (value : Option Value) (default : α) : Checked α :=
  match value with
  | none => .ok default
  | some value => read place value

def requiredField {α : Type} (read : List Step → Value → Checked α) (place : List Step)
    (value : Option Value) : Checked α :=
  match value with
  | none => .refuse place .missing
  | some value => read place value

def rulesField (place : List Step) (value : Value) : Checked Rules :=
  match value with
  | .dict entries =>
    (Checked.all (entries.map fun (key, replacement) =>
      (textField (place ++ [.key key]) replacement).map fun content => (key, content))).map
        fun productions => ⟨productions⟩
  | _ => .refuse place .notDict

def textsField (place : List Step) (value : Value) : Checked (List String) :=
  match value with
  | .list items =>
    Checked.all (items.zipIdx.map fun (item, index) =>
      textField (place ++ [.position index]) item)
  | _ => .refuse place .notList

/-! ## The two forms -/

structure TreeForm where
  speciesId : Option String
  start : Option String
  rules : Rules
  iterations : Int
  angle : Option Float
  stepSize : Option Float

structure PruneForm where
  tree : TreeForm
  branchId : String
  prunedIds : List String

def bodyPlace : List Step :=
  [.key "body"]

def fieldPlace (name : String) : List Step :=
  bodyPlace ++ [.key name]

def iterationsField (place : List Step) (value : Value) : Checked Int :=
  match wholeField place value with
  | .ok count => inBounds place Settings.standard.iterationsRange .int count
  | .error complaints => .error complaints

def boundedReal (bounds : Bounds) (place : List Step) (value : Value) : Checked Float :=
  match realField place value with
  | .ok number => inBounds place bounds .real number
  | .error complaints => .error complaints

namespace TreeForm

def ofEntries (entries : List (String × Value)) : Checked TreeForm :=
  let speciesId := optionalField textField (fieldPlace "species_id") (entries.lookup "species_id")
  let start := optionalField textField (fieldPlace "axiom") (entries.lookup "axiom")
  let rules := fieldOr rulesField (fieldPlace "rules") (entries.lookup "rules") ⟨[]⟩
  let iterations := fieldOr iterationsField (fieldPlace "iterations")
    (entries.lookup "iterations") Settings.standard.defaultIterations
  let angle := optionalField (boundedReal Settings.standard.angleRange) (fieldPlace "angle")
    (entries.lookup "angle")
  let stepSize := optionalField (boundedReal Settings.standard.stepRange)
    (fieldPlace "step_size") (entries.lookup "step_size")
  (speciesId.both (start.both (rules.both (iterations.both (angle.both stepSize))))).map
    fun (speciesId, start, rules, iterations, angle, stepSize) =>
      ⟨speciesId, start, rules, iterations, angle, stepSize⟩

end TreeForm

namespace PruneForm

def ofEntries (entries : List (String × Value)) : Checked PruneForm :=
  let tree := TreeForm.ofEntries entries
  let branchId := requiredField textField (fieldPlace "branch_id") (entries.lookup "branch_id")
  let prunedIds := fieldOr textsField (fieldPlace "pruned_ids") (entries.lookup "pruned_ids") []
  (tree.both (branchId.both prunedIds)).map fun (tree, branchId, prunedIds) =>
    ⟨tree, branchId, prunedIds⟩

end PruneForm

/-- Reads a form from the document of a request. Without a document, or with null in its place,
the document itself is missing. -/
def readForm {α : Type} (ofEntries : List (String × Value) → Checked α) (body : Option Value) :
    Checked α :=
  match body with
  | none | some .null => .refuse bodyPlace .missing
  | some (.dict entries) => ofEntries entries
  | some _ => .refuse bodyPlace .notObject

end Topiary.Service
