import Topiary.Geometry.Scalar

set_option autoImplicit false

/-!
# Vectors of space

Points and directions with their componentwise operations, the inner and the outer
product and the length.
-/

namespace Topiary

structure Vec3 (α : Type) where
  x : α
  y : α
  z : α
  deriving Repr, BEq, DecidableEq

namespace Vec3

variable {α β : Type}

def toList (v : Vec3 α) : List α :=
  [v.x, v.y, v.z]

def map (f : α → β) (v : Vec3 α) : Vec3 β :=
  ⟨f v.x, f v.y, f v.z⟩

@[inline] def add [Add α] (v w : Vec3 α) : Vec3 α :=
  ⟨v.x + w.x, v.y + w.y, v.z + w.z⟩

@[inline] def sub [Sub α] (v w : Vec3 α) : Vec3 α :=
  ⟨v.x - w.x, v.y - w.y, v.z - w.z⟩

@[inline] instance [Add α] : Add (Vec3 α) := ⟨add⟩

@[inline] instance [Sub α] : Sub (Vec3 α) := ⟨sub⟩

@[inline] def scale [Mul α] (factor : α) (v : Vec3 α) : Vec3 α :=
  ⟨factor * v.x, factor * v.y, factor * v.z⟩

@[inline] def dot [Add α] [Mul α] (v w : Vec3 α) : α :=
  v.x * w.x + v.y * w.y + v.z * w.z

@[inline] def cross [Sub α] [Mul α] (v w : Vec3 α) : Vec3 α :=
  ⟨v.y * w.z - v.z * w.y, v.z * w.x - v.x * w.z, v.x * w.y - v.y * w.x⟩

/-- The length, without any scaling of the components: their squares may leave the range of
the scalars although the length does not. -/
@[inline] def length [Scalar α] (v : Vec3 α) : α :=
  Scalar.squareRoot (v.dot v)

def origin [Scalar α] : Vec3 α :=
  ⟨Scalar.zero, Scalar.zero, Scalar.zero⟩

@[simp] theorem map_x (f : α → β) (v : Vec3 α) : (v.map f).x = f v.x := rfl

@[simp] theorem map_y (f : α → β) (v : Vec3 α) : (v.map f).y = f v.y := rfl

@[simp] theorem map_z (f : α → β) (v : Vec3 α) : (v.map f).z = f v.z := rfl

end Vec3

end Topiary
