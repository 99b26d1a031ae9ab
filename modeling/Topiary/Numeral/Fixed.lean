import Topiary.Numeral.Binary
import Topiary.Numeral.Rounding

set_option autoImplicit false

/-!
# Fixed places

A double is written with a fixed number of decimals, rounded once from its exact
value, with all its integer digits. A value that rounds to zero carries no sign.
-/

namespace Topiary.Numeral

def padded (width number : Nat) : String :=
  let digits := toString number
  String.ofList (List.replicate (width - digits.length) '0') ++ digits

def unitsText (places units : Nat) : String :=
  let whole := toString (units / Nat.pow 10 places)
  if places = 0 then whole else whole ++ "." ++ padded places (units % Nat.pow 10 places)

/-- A double with exactly `places` decimals; a tie goes to the even last digit. -/
def fixed (places : Nat) (number : Float) : String :=
  match Binary.ofFloat? number with
  | none => if number.isNaN then "nan" else if number < 0 then "-inf" else "inf"
  | some exact =>
    let (numerator, denominator) := exact.quotient
    let units := roundQuotient (numerator * Nat.pow 10 places) denominator
    if exact.negative && units != 0 then "-" ++ unitsText places units
    else unitsText places units

/-- The least number of decimals, at most `places`, that writes every one of the numbers as
exactly as `places` decimals do; at least one decimal is kept. -/
def placesNeeded (places : Nat) (numbers : List Float) : Nat :=
  let needed (number : Float) : Nat :=
    match Binary.ofFloat? number with
    | none => 1
    | some exact =>
      let (numerator, denominator) := exact.quotient
      let units := roundQuotient (numerator * Nat.pow 10 places) denominator
      places - ((List.range places).takeWhile fun zeros => units % Nat.pow 10 (zeros + 1) = 0).length
  numbers.foldl (fun most number => max most (needed number)) 1

end Topiary.Numeral
