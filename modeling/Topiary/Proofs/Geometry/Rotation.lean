import Mathlib.Algebra.Quaternion
import Mathlib.Tactic.LinearCombination
import Mathlib.Tactic.NoncommRing
import Topiary.Geometry.Rotor

set_option autoImplicit false

/-!
# Rotations are conjugations

Read as a quaternion, a unit rotor maps a vector to its conjugate, and the product of two
vectors has their inner product as its scalar and their outer product as its vector
part. Conjugation keeps products, so a rotation keeps both.
-/

namespace Topiary

section Fields

variable {α : Type} {v w : Vec3 α}

@[ext] theorem Vec3.ext (x : v.x = w.x) (y : v.y = w.y) (z : v.z = w.z) : v = w := by
  cases v
  cases w
  simp_all

@[simp] theorem Vec3.add_x [Add α] : (v + w).x = v.x + w.x := rfl

@[simp] theorem Vec3.add_y [Add α] : (v + w).y = v.y + w.y := rfl

@[simp] theorem Vec3.add_z [Add α] : (v + w).z = v.z + w.z := rfl

end Fields

variable {α : Type} [CommRing α]

/-! ## Quaternions -/

namespace Vec3

def quaternion (v : Vec3 α) : Quaternion α :=
  ⟨0, v.x, v.y, v.z⟩

section

variable (v w : Vec3 α)

@[simp] theorem re_quaternion : v.quaternion.re = 0 := rfl

@[simp] theorem imI_quaternion : v.quaternion.imI = v.x := rfl

@[simp] theorem imJ_quaternion : v.quaternion.imJ = v.y := rfl

@[simp] theorem imK_quaternion : v.quaternion.imK = v.z := rfl

theorem quaternion_mul :
    v.quaternion * w.quaternion = (v.cross w).quaternion - ((v.dot w : α) : Quaternion α) := by
  ext <;> simp [cross, dot] <;> ring

end

theorem quaternion_injective : Function.Injective (quaternion : Vec3 α → Quaternion α) := by
  intro v w same
  obtain ⟨-, x, y, z⟩ := QuaternionAlgebra.ext_iff.mp same
  exact Vec3.ext x y z

end Vec3

namespace Rotor

def quaternion (rotor : Rotor α) : Quaternion α :=
  ⟨rotor.w, rotor.axis.x, rotor.axis.y, rotor.axis.z⟩

section

variable (rotor : Rotor α)

@[simp] theorem re_quaternion : rotor.quaternion.re = rotor.w := rfl

@[simp] theorem imI_quaternion : rotor.quaternion.imI = rotor.axis.x := rfl

@[simp] theorem imJ_quaternion : rotor.quaternion.imJ = rotor.axis.y := rfl

@[simp] theorem imK_quaternion : rotor.quaternion.imK = rotor.axis.z := rfl

end

def IsUnit (rotor : Rotor α) : Prop :=
  rotor.w * rotor.w + rotor.axis.dot rotor.axis = 1

namespace IsUnit

variable {rotor : Rotor α}

theorem star_mul (unit : rotor.IsUnit) : star rotor.quaternion * rotor.quaternion = 1 := by
  rw [Quaternion.star_mul_self, ← Quaternion.coe_one, ← unit]
  congr 1
  rw [Quaternion.normSq_def']
  simp only [quaternion, Vec3.dot]
  ring

theorem mul_star (unit : rotor.IsUnit) : rotor.quaternion * star rotor.quaternion = 1 := by
  rw [← star_comm_self, unit.star_mul]

theorem quaternion_rotate (unit : rotor.IsUnit) (v : Vec3 α) :
    (rotor.rotate v).quaternion = rotor.quaternion * v.quaternion * star rotor.quaternion := by
  unfold IsUnit Vec3.dot at unit
  ext <;> simp [rotate, Vec3.cross, Vec3.scale]
  · ring
  · linear_combination -v.x * unit
  · linear_combination -v.y * unit
  · linear_combination -v.z * unit

/-- A rotation keeps the product of vectors, and so both of its parts. -/
theorem quaternion_mul_rotate (unit : rotor.IsUnit) (v w : Vec3 α) :
    (rotor.rotate v).quaternion * (rotor.rotate w).quaternion =
      (rotor.rotate (v.cross w)).quaternion - ((v.dot w : α) : Quaternion α) := by
  have scalar : rotor.quaternion * ((v.dot w : α) : Quaternion α) * star rotor.quaternion =
      ((v.dot w : α) : Quaternion α) := by
    rw [← Quaternion.coe_commutes, mul_assoc, unit.mul_star, mul_one]
  calc (rotor.rotate v).quaternion * (rotor.rotate w).quaternion
      = rotor.quaternion * v.quaternion * (star rotor.quaternion * rotor.quaternion) *
          w.quaternion * star rotor.quaternion := by
        rw [unit.quaternion_rotate, unit.quaternion_rotate]
        noncomm_ring
    _ = rotor.quaternion * (v.quaternion * w.quaternion) * star rotor.quaternion := by
        rw [unit.star_mul, mul_one, mul_assoc rotor.quaternion]
    _ = (rotor.rotate (v.cross w)).quaternion - ((v.dot w : α) : Quaternion α) := by
        rw [Vec3.quaternion_mul, mul_sub, sub_mul, unit.quaternion_rotate, scalar]

theorem dot_rotate (unit : rotor.IsUnit) (v w : Vec3 α) :
    (rotor.rotate v).dot (rotor.rotate w) = v.dot w := by
  have product := unit.quaternion_mul_rotate v w
  rw [Vec3.quaternion_mul] at product
  simpa using congrArg QuaternionAlgebra.re product

theorem cross_rotate (unit : rotor.IsUnit) (v w : Vec3 α) :
    (rotor.rotate v).cross (rotor.rotate w) = rotor.rotate (v.cross w) := by
  have product := unit.quaternion_mul_rotate v w
  rw [Vec3.quaternion_mul, unit.dot_rotate] at product
  exact Vec3.quaternion_injective (sub_left_injective product)

end IsUnit

/-- A rotation leaves the vectors along its axis where they are. -/
theorem rotate_scale (w sine : α) (v : Vec3 α) : rotate ⟨w, v.scale sine⟩ v = v := by
  ext <;> simp [rotate, Vec3.cross, Vec3.scale] <;> ring

end Rotor

end Topiary
