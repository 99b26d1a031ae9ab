import Topiary.Numeral.Rounding

set_option autoImplicit false

/-!
# The double nearest to a quotient

The quotient is cut to fifty-three significant bits, or to the spacing of the
smallest doubles, and rounded once with ties to even. Beyond the largest finite
double the answer is infinity.
-/

namespace Topiary.Numeral

def infinityBits : Nat := 2047 * Nat.pow 2 52

/-- The significand on the grid of spacing `2 ^ exponent`, rounded once. -/
def significandOn (numerator denominator : Nat) (exponent : Int) : Nat :=
  roundQuotient (numerator * Nat.pow 2 (-exponent).toNat) (denominator * Nat.pow 2 exponent.toNat)

/-- The spacing of doubles around a positive quotient, as a power of two. -/
def spacing (numerator denominator : Nat) : Int :=
  let guess : Int := (numerator.log2 : Int) - denominator.log2 - 53
  let whole := numerator * Nat.pow 2 (-guess).toNat / (denominator * Nat.pow 2 guess.toNat)
  let exponent := if whole < Nat.pow 2 53 then guess else guess + 1
  max exponent (-1074)

/-- The bits of the nonnegative double nearest to `numerator / denominator`. A carry
out of the significand moves to the next exponent by itself. -/
def nearestBits (numerator denominator : Nat) : Nat :=
  if numerator = 0 then 0
  else
    let exponent := spacing numerator denominator
    let significand := significandOn numerator denominator exponent
    min infinityBits (significand + (exponent + 1074).toNat * Nat.pow 2 52)

def nearest (negative : Bool) (numerator denominator : Nat) : Float :=
  let magnitude := Float.ofBits (nearestBits numerator denominator).toUInt64
  if negative then -magnitude else magnitude

/-- The double nearest to a whole number, or nothing where that would be infinite. -/
def nearestInt? (number : Int) : Option Float :=
  if nearestBits number.natAbs 1 = infinityBits then none
  else some (nearest (number < 0) number.natAbs 1)

/-- The double nearest to `digits * 10 ^ exponent`. Exponents far outside the range of
doubles are settled without writing the power out. -/
def nearestDecimal (negative : Bool) (digits : Nat) (exponent : Int) : Float :=
  let size : Int := digits.log2
  if digits = 0 then nearest negative 0 1
  else if 1100 < size / 4 + exponent then
    let magnitude := Float.ofBits infinityBits.toUInt64
    if negative then -magnitude else magnitude
  else if size + exponent < -1100 then nearest negative 0 1
  else nearest negative (digits * Nat.pow 10 exponent.toNat) (Nat.pow 10 (-exponent).toNat)

end Topiary.Numeral
