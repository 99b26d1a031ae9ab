import Topiary.Species.Basic

set_option autoImplicit false

/-!
# Fingerprints

Species are told apart quickly by the fingerprints of their fields, in which the rules
take no part. Equal values have equal fingerprints. A number is taken modulo the prime
`2 ^ 61 - 1`, so that numbers of different kinds that are equal agree; a non-number
agrees with nothing.
-/

namespace Topiary

/-- What remains of a value that can serve as a key. -/
inductive Fingerprint where
  | nothing
  | number (residue : Int)
  | text (content : String)
  | unique
  deriving Repr, DecidableEq

namespace Fingerprint

def modulus : Nat := Nat.pow 2 61 - 1

def infinityResidue : Int := 314159

/-- A residue with a sign. Minus one shares the residue of minus two. -/
def signed (negative : Bool) (residue : Nat) : Int :=
  let number : Int := if negative then -residue else residue
  if number = -1 then -2 else number

def ofInt (number : Int) : Fingerprint :=
  .number (signed (number < 0) (number.natAbs % modulus))

/-- The fingerprint of a double. Two to the power of sixty-one is one, so a power of two below
the point is one above it. -/
def ofFloat (number : Float) : Fingerprint :=
  match Numeral.Binary.ofFloat? number with
  | some exact =>
    let power := (exact.exponent % 61).toNat
    .number (signed exact.negative (exact.significand * Nat.pow 2 power % modulus))
  | none =>
    if number.isNaN then .unique
    else .number (if number < 0 then -infinityResidue else infinityResidue)

def ofValue (value : Value) : Except Fault Fingerprint :=
  match value with
  | .null => .ok .nothing
  | .bool truth => .ok (ofInt (if truth then 1 else 0))
  | .int whole => .ok (ofInt whole)
  | .real double => .ok (ofFloat double)
  | .text content => .ok (if content.isEmpty then .number 0 else .text content)
  | .list _ | .dict _ => .error (.notAKey value)

def agrees (left right : Fingerprint) : Bool :=
  left == right && left != .unique

end Fingerprint

def Species.fingerprints (species : Species) : Except Fault (List Fingerprint) :=
  species.fieldsBesideRules.mapM Fingerprint.ofValue

def Species.sameFingerprints (left right : Species) : Except Fault Bool :=
  match left.fingerprints, right.fingerprints with
  | .ok lefts, .ok rights =>
    .ok ((lefts.zip rights).all fun (left, right) => left.agrees right)
  | .error fault, _ => .error fault
  | _, .error fault => .error fault

end Topiary
