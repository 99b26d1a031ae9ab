import Topiary.Numeral.Binary

set_option autoImplicit false

/-!
# The fewest digits that read back

A double is written with as few decimal digits as identify it among all doubles.
Every real number between the midpoints to its two neighbours rounds to it; the
first decimal grid with a point between them gives the digits, and of two such
points the nearer one is taken.
-/

namespace Topiary.Numeral

/-- Where a decimal point is written out and how an exponent looks. -/
structure Style where
  positionalFrom : Int
  positionalTo : Int
  exponentDigits : Nat
  deriving Repr

/-- The exponent of the leading decimal digit of a positive double. No double is below
`10 ^ -340`, so a count of digits above that place finds it. -/
def leadingExponent (value : Binary) : Int :=
  let (numerator, denominator) := value.quotient
  ((toString (numerator * Nat.pow 10 340 / denominator)).length : Int) - 341

/-- The nearest point of the grid `10 ^ grid` that rounds to the value, if there is one. A
midpoint to a neighbour belongs to the value exactly if its significand is even. -/
def gridPoint? (value : Binary) (grid : Int) : Option Nat :=
  let quarter := value.exponent - 2
  let unit := Nat.pow 10 grid.toNat * Nat.pow 2 (-quarter).toNat
  let factor := Nat.pow 2 quarter.toNat * Nat.pow 10 (-grid).toNat
  let below := if value.significand = Nat.pow 2 52 && value.exponent != -1074 then 1 else 2
  let centre := 4 * value.significand * factor
  let lower := (4 * value.significand - below) * factor
  let upper := (4 * value.significand + 2) * factor
  let inside (point : Nat) : Bool :=
    if value.significand % 2 = 0 then lower ≤ point * unit && point * unit ≤ upper
    else lower < point * unit && point * unit < upper
  let floor := centre / unit
  let ceiling := floor + 1
  match inside floor, inside ceiling with
  | true, true =>
    let before := centre - floor * unit
    let after := ceiling * unit - centre
    if before < after then some floor
    else if after < before then some ceiling
    else if floor % 2 = 0 then some floor else some ceiling
  | true, false => some floor
  | false, true => some ceiling
  | false, false => none

/-- Removes zeros at the end of a decimal significand, at most `steps` of them. -/
def dropZeros : Nat → Nat → Int → Nat × Int
  | 0, digits, exponent => (digits, exponent)
  | steps + 1, digits, exponent =>
    if digits % 10 = 0 && digits != 0 then dropZeros steps (digits / 10) (exponent + 1)
    else (digits, exponent)

/-- The shortest digits of a positive double and the exponent of the last of them. Seventeen
digits always identify a double. -/
def shortestDigits (value : Binary) : Nat × Int :=
  let leading := leadingExponent value
  let attempt (count : Nat) : Option (Nat × Int) :=
    let grid := leading - count
    (gridPoint? value grid).map fun point => dropZeros 17 point grid
  ((List.range 17).findSome? attempt).getD (0, 0)

def Style.layout (style : Style) (digits : Nat) (exponent : Int) : String :=
  let written := (toString digits).toList
  let leading := exponent + written.length - 1
  let zeros (count : Int) : List Char := List.replicate count.toNat '0'
  if style.positionalFrom ≤ leading && leading ≤ style.positionalTo then
    if leading < 0 then String.ofList ("0.".toList ++ zeros (-leading - 1) ++ written)
    else
      let wholeDigits := leading.toNat + 1
      let whole := written.take wholeDigits ++ zeros exponent
      let fraction := written.drop wholeDigits
      String.ofList (whole ++ ['.'] ++ if fraction.isEmpty then ['0'] else fraction)
  else
    let mantissa := match written with
      | first :: second :: rest => first :: '.' :: second :: rest
      | short => short
    let size := toString leading.natAbs
    let sign := if leading < 0 then '-' else '+'
    String.ofList (mantissa ++ ['e', sign] ++ zeros (style.exponentDigits - size.length : Int))
      ++ size

def shortest (style : Style) (number : Float) : String :=
  match Binary.ofFloat? number with
  | none => if number.isNaN then "nan" else if number < 0 then "-inf" else "inf"
  | some exact =>
    let magnitude :=
      if exact.significand = 0 then style.layout 0 0
      else
        let (digits, exponent) := shortestDigits exact
        style.layout digits exponent
    if exact.negative then "-" ++ magnitude else magnitude

end Topiary.Numeral
