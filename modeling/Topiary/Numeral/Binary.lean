set_option autoImplicit false

/-!
# Exact values of doubles

A finite double is a whole number times a power of two. Comparisons between
whole numbers and doubles are made on these exact values, so neither side is
rounded first.
-/

namespace Topiary.Numeral

/-- A signed number `significand * 2 ^ exponent`. -/
structure Binary where
  negative : Bool
  significand : Nat
  exponent : Int
  deriving Repr, DecidableEq, Inhabited

namespace Binary

/-- The exact value of a double; infinities and non-numbers have none. -/
def ofFloat? (number : Float) : Option Binary :=
  let bits := number.toBits.toNat
  let negative := bits / Nat.pow 2 63 == 1
  let biased : Nat := bits / Nat.pow 2 52 % Nat.pow 2 11
  let fraction : Nat := bits % Nat.pow 2 52
  if biased = 2047 then none
  else if biased = 0 then some ⟨negative, fraction, -1074⟩
  else some ⟨negative, fraction + Nat.pow 2 52, (biased : Int) - 1075⟩

def ofInt (number : Int) : Binary :=
  ⟨number < 0, number.natAbs, 0⟩

/-- The numerator over `2 ^ shift`, for a shift that leaves no fraction behind. -/
def scaled (value : Binary) (shift : Nat) : Int :=
  let magnitude : Int := value.significand * Nat.pow 2 (value.exponent + shift).toNat
  if value.negative then -magnitude else magnitude

/-- A shift that turns the exponent into a natural number. -/
def shift (value : Binary) : Nat :=
  (-value.exponent).toNat

def compare (left right : Binary) : Ordering :=
  let common := max left.shift right.shift
  Ord.compare (left.scaled common) (right.scaled common)

def quotient (value : Binary) : Nat × Nat :=
  (value.significand * Nat.pow 2 value.exponent.toNat, Nat.pow 2 value.shift)

end Binary

inductive Number where
  | whole (number : Int)
  | double (number : Float)

namespace Number

def orderToWhole? (number : Float) (whole : Int) : Option Ordering :=
  match Binary.ofFloat? number with
  | some exact => some (exact.compare (Binary.ofInt whole))
  | none => if number.isNaN then none else if number < 0 then some .lt else some .gt

def isNonNumber : Number → Bool
  | .whole _ => false
  | .double number => number.isNaN

/-- How two numbers stand to each other. A whole number is compared by its exact value, and
nothing compares with a non-number. -/
def order? (left right : Number) : Option Ordering :=
  match left, right with
  | .whole a, .whole b => some (compare a b)
  | .double a, .double b =>
    if a < b then some .lt else if a == b then some .eq else if b < a then some .gt else none
  | .double a, .whole b => orderToWhole? a b
  | .whole a, .double b => (orderToWhole? b a).map Ordering.swap

/-- Whether two numbers are equal. Two non-numbers are only where that is asked for. -/
def agrees (nonNumbersAgree : Bool) (left right : Number) : Bool :=
  left.order? right == some .eq ||
    (nonNumbersAgree && left.isNonNumber && right.isNonNumber)

end Number

end Topiary.Numeral
