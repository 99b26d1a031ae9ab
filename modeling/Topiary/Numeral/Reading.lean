import Topiary.Numeral.Nearest

set_option autoImplicit false

/-!
# Reading real numbers

A real number is an optional sign, decimal digits with an optional point and an
optional exponent, or one of the words for infinity and for a non-number. Nothing
may be left over.
-/

namespace Topiary.Numeral

def digitsValue (digits : List Char) : Nat :=
  digits.foldl (fun value digit => 10 * value + (digit.toNat - '0'.toNat)) 0

def splitSign : List Char → Bool × List Char
  | '-' :: rest => (true, rest)
  | '+' :: rest => (false, rest)
  | text => (false, text)

/-- The exponent that ends a number: nothing at all, or a mark, a sign and digits. -/
def readExponent? : List Char → Option Int
  | [] => some 0
  | mark :: rest =>
    if mark = 'e' || mark = 'E' then
      let (negative, digits) := splitSign rest
      if digits.isEmpty || !digits.all Char.isDigit then none
      else
        let size : Int := digitsValue digits
        some (if negative then -size else size)
    else none

def readReal? (text : List Char) : Option Float :=
  let (negative, body) := splitSign text
  let word := body.map Char.toLower
  if word = "inf".toList || word = "infinity".toList then
    some (if negative then -(1.0 / 0.0) else 1.0 / 0.0)
  else if word = "nan".toList then some (0.0 / 0.0)
  else
    let whole := body.takeWhile Char.isDigit
    let afterWhole := body.dropWhile Char.isDigit
    let (fraction, afterFraction) := match afterWhole with
      | '.' :: rest => (rest.takeWhile Char.isDigit, rest.dropWhile Char.isDigit)
      | rest => ([], rest)
    let digits := whole ++ fraction
    if digits.isEmpty then none
    else (readExponent? afterFraction).map fun exponent =>
      nearestDecimal negative (digitsValue digits) (exponent - fraction.length)

/-- A text without its underscores, if each of them stands between two digits. -/
def dropDigitSeparators? : List Char → Option (List Char)
  | [] => some []
  | '_' :: _ => none
  | before :: '_' :: after :: rest =>
    if before.isDigit && after.isDigit then
      (dropDigitSeparators? (after :: rest)).map (before :: ·)
    else none
  | character :: rest => (dropDigitSeparators? rest).map (character :: ·)

end Topiary.Numeral
