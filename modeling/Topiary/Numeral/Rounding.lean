set_option autoImplicit false

/-!
# Rounding a quotient

Quotients of natural numbers are rounded once, at the end, so no intermediate
result loses a digit. A tie goes to the even neighbour.
-/

namespace Topiary.Numeral

/-- The natural number nearest to `numerator / denominator`. A quotient half way
between two neighbours goes to the even one. -/
def roundQuotient (numerator denominator : Nat) : Nat :=
  let whole := numerator / denominator
  let twice := 2 * (numerator % denominator)
  if twice < denominator then whole
  else if denominator < twice then whole + 1
  else if whole % 2 = 0 then whole else whole + 1

end Topiary.Numeral
