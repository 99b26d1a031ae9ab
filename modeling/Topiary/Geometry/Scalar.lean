set_option autoImplicit false

/-!
# Scalars

The arithmetic that a drawing needs. Doubles are the scalars of the running program;
the laws of rotations and lengths concern scalars with exact arithmetic.
-/

namespace Topiary

/-- Numbers with the operations of a drawing. -/
class Scalar (α : Type) extends Add α, Sub α, Mul α, Div α, Neg α where
  zero : α
  one : α
  half : α
  straight : α
  degree : α
  /-- A length below this one counts as none. -/
  tiny : α
  squareRoot : α → α
  sine : α → α
  cosine : α → α
  less : α → α → Bool
  isNumber : α → Bool

instance : Scalar Float where
  zero := 0.0
  one := 1.0
  half := 0.5
  straight := 3.141592653589793
  degree := 3.141592653589793 / 180.0
  tiny := 1e-12
  squareRoot := Float.sqrt
  sine := Float.sin
  cosine := Float.cos
  less left right := left < right
  isNumber number := !number.isNaN

end Topiary
