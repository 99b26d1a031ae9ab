import Topiary.Numeral.Binary
import Topiary.Numeral.Nearest
import Topiary.Numeral.Reading
import Topiary.Numeral.Shortest
import Topiary.Text.Blank
import Topiary.Text.Digit
import Topiary.Text.Quoted

set_option autoImplicit false

/-!
# Values of parameters and documents

Parameters come from outside and may be of any kind, so they are kept as they were
given until they are used. The same values are the documents that the service
reads and answers. This module holds their texts, their equality and order, and
their conversion to real numbers.
-/

namespace Topiary

inductive Value where
  | null
  | bool (truth : Bool)
  | int (number : Int)
  | real (number : Float)
  | text (content : String)
  | list (items : List Value)
  | dict (entries : List (String × Value))
  deriving Inhabited

namespace Value

/-! ## Texts -/

/-- Real numbers are positional from `1e-4` up to below `1e16`, and exponents have two digits
or more. -/
def realStyle : Numeral.Style := ⟨-4, 15, 2⟩

mutual

/-- A value as a literal: texts are quoted, and containers show their parts as literals. -/
def literal : Value → String
  | .null => "None"
  | .bool truth => if truth then "True" else "False"
  | .int number => toString number
  | .real number => Numeral.shortest realStyle number
  | .text content => Text.quoted content
  | .list items => "[" ++ ", ".intercalate (literals items) ++ "]"
  | .dict entries => "\x7b" ++ ", ".intercalate (entryLiterals entries) ++ "\x7d"

def literals : List Value → List String
  | [] => []
  | item :: rest => item.literal :: literals rest

def entryLiterals : List (String × Value) → List String
  | [] => []
  | (key, value) :: rest => (Text.quoted key ++ ": " ++ value.literal) :: entryLiterals rest

end

/-- A value as it shows in running text: a text stands without quotes. -/
def plain : Value → String
  | .text content => content
  | value => value.literal

/-! ## Numbers -/

/-- The number that a value is, with a truth value counting as zero or one. -/
def number? : Value → Option Numeral.Number
  | .bool truth => some (.whole (if truth then 1 else 0))
  | .int number => some (.whole number)
  | .real number => some (.double number)
  | _ => none

/-- A text read as a real number: blanks around it are ignored, digits of every script count,
and single underscores may stand between digits. -/
def readReal? (content : String) : Option Float := do
  let characters := (Text.trimBlanks content.toList).map Text.toAsciiDigit
  let digits ← Numeral.dropDigitSeparators? characters
  Numeral.readReal? digits

inductive RealReading where
  | real (number : Float)
  | notReal
  | beyondRange

def toReal : Value → RealReading
  | .bool truth => .real (if truth then 1 else 0)
  | .int number =>
    match Numeral.nearestInt? number with
    | some nearest => .real nearest
    | none => .beyondRange
  | .real number => .real number
  | .text content =>
    match readReal? content with
    | some number => .real number
    | none => .notReal
  | .null | .list _ | .dict _ => .notReal

/-! ## Equality and order -/

mutual

/-- Equality of values: numbers are compared by their exact values whatever their kind, and
dictionaries without regard to the order of their entries. Whether two non-numbers are equal
depends on what is asked. -/
def agreesWith (nonNumbersAgree : Bool) : Value → Value → Bool
  | .null, .null => true
  | .text left, .text right => left == right
  | .list left, .list right => agreesList nonNumbersAgree left right
  | .dict left, .dict right =>
    left.length == right.length && agreesEntries nonNumbersAgree left right
  | left, right =>
    match left.number?, right.number? with
    | some a, some b => a.agrees nonNumbersAgree b
    | _, _ => false

def agreesList (nonNumbersAgree : Bool) : List Value → List Value → Bool
  | [], [] => true
  | left :: lefts, right :: rights =>
    agreesWith nonNumbersAgree left right && agreesList nonNumbersAgree lefts rights
  | _, _ => false

def agreesEntries (nonNumbersAgree : Bool) :
    List (String × Value) → List (String × Value) → Bool
  | [], _ => true
  | (key, left) :: rest, others =>
    (match others.lookup key with
      | some right => agreesWith nonNumbersAgree left right
      | none => false) && agreesEntries nonNumbersAgree rest others

end

def agrees (left right : Value) : Bool :=
  agreesWith false left right

mutual

/-- The order of two values. Numbers have an order with numbers, texts with texts by code points
and lists with lists by their first difference; values of other kinds have none. A non-number
has an order with numbers, but stands nowhere in it. -/
def order? : Value → Value → Option (Option Ordering)
  | .text left, .text right => some (some (compare left right))
  | .list left, .list right => orderLists? left right
  | left, right =>
    match left.number?, right.number? with
    | some a, some b => some (a.order? b)
    | _, _ => none

def orderLists? : List Value → List Value → Option (Option Ordering)
  | [], [] => some (some .eq)
  | [], _ :: _ => some (some .lt)
  | _ :: _, [] => some (some .gt)
  | left :: lefts, right :: rights =>
    if left.agrees right then orderLists? lefts rights else left.order? right

end

def atMost? (left right : Value) : Option Bool :=
  (left.order? right).map fun order => order == some .lt || order == some .eq

def exceeds? (left right : Value) : Option Bool :=
  (left.order? right).map fun order => order == some .gt

/-- Whether a value may stand before another one in ascending order. -/
def notAfter (left right : Value) : Bool :=
  left.order? right != some (some .gt)

def haveOrder : List Value → Bool
  | [] => true
  | value :: rest => rest.all (fun other => (value.order? other).isSome) && haveOrder rest

/-! ## Parts -/

/-- What a value is made of, in order: the characters of a text, the items of a list, the keys of
a dictionary. Nothing else has parts. -/
def parts? (value : Value) : Option (List Value) :=
  match value with
  | .text content => some (content.toList.map fun character => .text (String.ofList [character]))
  | .list items => some items
  | .dict entries => some (entries.map fun entry => .text entry.1)
  | _ => none

def isKey (value : Value) : Bool :=
  match value with
  | .list _ | .dict _ => false
  | _ => true

def get? (value : Value) (key : String) : Option Value :=
  match value with
  | .dict entries => entries.lookup key
  | _ => none

/-- What a dictionary whose keys may be of any kind has for a key. -/
def lookup? {α : Type} (entries : List (Value × α)) (key : Value) : Option α :=
  (entries.find? fun entry => entry.1.agrees key).map Prod.snd

end Value

end Topiary
