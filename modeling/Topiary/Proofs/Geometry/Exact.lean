import Mathlib.Analysis.Real.Sqrt
import Mathlib.Analysis.SpecialFunctions.Trigonometric.Basic
import Mathlib.Data.Rat.Sqrt
import Topiary.Geometry.Scalar

set_option autoImplicit false

/-!
# Exact arithmetic

Scalars that are not rounded: the numbers of an ordered field. Any functions may serve as
cosine and sine whose values lie on the unit circle, and any function as square root
that is right on squares.
-/

namespace Topiary

/-- An ordered field with all that a drawing computes. -/
class ExactScalar (α : Type) extends Field α, LinearOrder α, IsStrictOrderedRing α where
  straight : α
  degree : α
  squareRoot : α → α
  sine : α → α
  cosine : α → α
  squareRoot_nonneg (number : α) : 0 ≤ squareRoot number
  squareRoot_mul_self (number : α) : squareRoot (number * number) = |number|
  cosine_sine (angle : α) : cosine angle * cosine angle + sine angle * sine angle = 1

instance {α : Type} [ExactScalar α] : Scalar α where
  zero := 0
  one := 1
  half := 1 / 2
  straight := ExactScalar.straight
  degree := ExactScalar.degree
  tiny := 1 / 10 ^ 12
  squareRoot := ExactScalar.squareRoot
  sine := ExactScalar.sine
  cosine := ExactScalar.cosine
  less left right := left < right
  isNumber _ := true

noncomputable instance : ExactScalar ℝ where
  straight := Real.pi
  degree := Real.pi / 180
  squareRoot := Real.sqrt
  sine := Real.sin
  cosine := Real.cos
  squareRoot_nonneg := Real.sqrt_nonneg
  squareRoot_mul_self := Real.sqrt_mul_self_eq_abs
  cosine_sine angle := by
    rw [← sq, ← sq]
    exact Real.cos_sq_add_sin_sq angle

/-- Rational numbers, where the number that stands for an angle is the tangent of its half. The
half turn has the half angle one. -/
instance : ExactScalar ℚ where
  straight := 2
  degree := 1 / 90
  squareRoot := Rat.sqrt
  sine angle := 2 * angle / (1 + angle * angle)
  cosine angle := (1 - angle * angle) / (1 + angle * angle)
  squareRoot_nonneg := Rat.sqrt_nonneg
  squareRoot_mul_self := Rat.sqrt_eq
  cosine_sine angle := by
    have positive : 0 < 1 + angle * angle := by
      have square := mul_self_nonneg angle
      linarith
    field_simp
    ring

section

variable {α : Type} [ExactScalar α]

@[simp] theorem Scalar.zero_eq : (Scalar.zero : α) = 0 := rfl

@[simp] theorem Scalar.one_eq : (Scalar.one : α) = 1 := rfl

@[simp] theorem Scalar.less_eq_true_iff {left right : α} :
    Scalar.less left right = true ↔ left < right :=
  decide_eq_true_iff

@[simp] theorem Scalar.isNumber_eq_true (number : α) : Scalar.isNumber number = true := rfl

end

end Topiary
