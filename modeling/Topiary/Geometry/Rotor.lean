import Topiary.Geometry.Vec3
import Topiary.Parameter

set_option autoImplicit false

/-!
# Rotations by quaternions

A rotation about an axis is a unit quaternion: the cosine of the half angle, and the
unit axis times the sine of the half angle. A vector is rotated by two outer
products, without writing a matrix or the conjugate product.
-/

namespace Topiary

structure Rotor (α : Type) where
  w : α
  axis : Vec3 α
  deriving Repr, BEq, DecidableEq

namespace Rotor

variable {α : Type}

def norm [Scalar α] (components : List α) : α :=
  Scalar.squareRoot (components.foldl (fun sum part => sum + part * part) Scalar.zero)

/-- The rotation by an angle in radians about an axis. The axis is given by its components:
all of them count in the norm, and the first three are the direction. An axis without
length is refused before one with too few components. -/
@[specialize] def about [Scalar α] (components : List α) (angle : α) : Except Fault (Rotor α) :=
  let size := norm components
  if Scalar.less size Scalar.tiny then .error .axisWithoutLength
  else
    match components with
    | x :: y :: z :: _ =>
      let halfAngle := Scalar.half * angle
      let sine := Scalar.sine halfAngle
      .ok ⟨Scalar.cosine halfAngle, ⟨x / size * sine, y / size * sine, z / size * sine⟩⟩
    | _ => .error .axisTooShort

/-- The rotation by an angle that a parameter gives. An axis without length is refused before
the angle, and the angle before an axis with too few components. -/
def aboutGiven (components : List Float) (angle : Value) : Except Fault (Rotor Float) :=
  if Scalar.less (norm components) Scalar.tiny then .error .axisWithoutLength
  else
    match angle.asNumber with
    | .ok radians => about components radians
    | .error fault => .error fault

/-- The image of a vector: `v + w t + u × t` for `t = 2 (u × v)`, where `w` and `u` are the
scalar and the vector part. -/
@[inline] def rotate [Add α] [Sub α] [Mul α] (rotor : Rotor α) (v : Vec3 α) : Vec3 α :=
  let once := rotor.axis.cross v
  let twice := once + once
  v + twice.scale rotor.w + rotor.axis.cross twice

def rotateAllGiven (components : List Float) (angle : Value) (vectors : List (Vec3 Float)) :
    Except Fault (List (Vec3 Float)) :=
  (aboutGiven components angle).map fun rotor => vectors.map rotor.rotate

end Rotor

end Topiary
