import Topiary.Geometry.Scalar

set_option autoImplicit false

/-!
# Sums of rounded numbers

The sum of many doubles depends on the order of the additions. Long lists are summed
in halves, so that errors do not build up; blocks are summed by eight running sums.
Beside this, a sum can carry along what its additions lost. In exact arithmetic all of
these are the plain sum.
-/

namespace Topiary.Summation

variable {α : Type} [Scalar α]

/-! ## In halves -/

def inOrder (first : α) (terms : List α) : α :=
  terms.foldl (fun sum term => sum + term) first

/-- Adds whole blocks of eight terms to eight running sums. What is left over comes second. -/
def addBlocks (sums terms : List α) : List α × List α :=
  if 8 ≤ terms.length then
    addBlocks (List.zipWith (fun sum term => sum + term) sums (terms.take 8)) (terms.drop 8)
  else (sums, terms)
termination_by terms.length
decreasing_by simp; omega

def joinSums (sums : List α) : α :=
  match sums with
  | [a, b, c, d, e, f, g, h] => ((a + b) + (c + d)) + ((e + f) + (g + h))
  | _ => inOrder Scalar.zero sums

def ofBlock (terms : List α) : α :=
  if terms.length < 8 then inOrder Scalar.zero terms
  else
    let (sums, rest) := addBlocks (terms.take 8) (terms.drop 8)
    inOrder (joinSums sums) rest

/-- Lists up to this length are not divided. -/
def blockLength : Nat := 128

/-- The sum of a list. A long list is divided near its middle, after a multiple of eight. -/
def inHalves (terms : List α) : α :=
  if blockLength < terms.length then
    let middle := terms.length / 2 - terms.length / 2 % 8
    inHalves (terms.take middle) + inHalves (terms.drop middle)
  else ofBlock terms
termination_by terms.length
decreasing_by
  all_goals
    simp only [blockLength, List.length_take, List.length_drop] at *
    omega

/-! ## With compensation -/

/-- Adds a term to a sum, together with what the additions before it gained by rounding. A gain
that is no number, as after an infinite term, is forgotten. -/
def addCompensated (state : α × α) (term : α) : α × α :=
  let (sum, gain) := state
  let corrected := term - gain
  let next := sum + corrected
  let rounding := next - sum - corrected
  (next, if Scalar.isNumber rounding then rounding else Scalar.zero)

def compensated (terms : List α) : α :=
  (terms.foldl addCompensated (Scalar.zero, Scalar.zero)).1

end Topiary.Summation
