import Topiary.Proofs.Geometry.Rotation

set_option autoImplicit false

/-!
# Rotations one after another

Quaternions are multiplied as their rotations follow one another. The rotor with the
opposite axis has the conjugate quaternion, so it takes a rotation back. All of this
holds over every commutative ring, of unit rotors only.
-/

namespace Topiary.Rotor

variable {α : Type} [CommRing α]

/-- The rotor for a rotation by the first rotor that comes after one by the second. -/
def product (last first : Rotor α) : Rotor α :=
  ⟨last.w * first.w - last.axis.dot first.axis,
    first.axis.scale last.w + last.axis.scale first.w + last.axis.cross first.axis⟩

def reversed (rotor : Rotor α) : Rotor α :=
  ⟨rotor.w, rotor.axis.map fun part => -part⟩

theorem quaternion_product (last first : Rotor α) :
    (last.product first).quaternion = last.quaternion * first.quaternion := by
  ext <;> simp [product, Vec3.dot, Vec3.cross, Vec3.scale] <;> ring

theorem quaternion_reversed (rotor : Rotor α) :
    rotor.reversed.quaternion = star rotor.quaternion := by
  ext <;> simp [reversed]

theorem reversed_reversed (rotor : Rotor α) : rotor.reversed.reversed = rotor := by
  cases rotor
  simp [reversed, Vec3.map]

theorem rotate_axis (rotor : Rotor α) : rotor.rotate rotor.axis = rotor.axis := by
  ext <;> simp [rotate, Vec3.cross, Vec3.scale] <;> ring

/-- A rotor without a scalar part turns by half a turn, which is its own opposite. -/
theorem rotate_reversed_of_halfTurn (axis v : Vec3 α) :
    (⟨0, axis⟩ : Rotor α).reversed.rotate v = (⟨0, axis⟩ : Rotor α).rotate v := by
  ext <;> simp [rotate, reversed, Vec3.cross, Vec3.scale] <;> ring

theorem isUnit_iff_normSq {rotor : Rotor α} :
    rotor.IsUnit ↔ Quaternion.normSq rotor.quaternion = 1 := by
  have sum : Quaternion.normSq rotor.quaternion =
      rotor.w * rotor.w + rotor.axis.dot rotor.axis := by
    rw [Quaternion.normSq_def']
    simp only [re_quaternion, imI_quaternion, imJ_quaternion, imK_quaternion, Vec3.dot]
    ring
  rw [IsUnit, sum]

namespace IsUnit

variable {rotor last first : Rotor α}

theorem product (lastUnit : last.IsUnit) (firstUnit : first.IsUnit) :
    (last.product first).IsUnit := by
  rw [isUnit_iff_normSq] at lastUnit firstUnit ⊢
  rw [quaternion_product, map_mul, lastUnit, firstUnit, mul_one]

theorem reversed (unit : rotor.IsUnit) : rotor.reversed.IsUnit := by
  rw [isUnit_iff_normSq] at unit ⊢
  rw [quaternion_reversed, Quaternion.normSq_star, unit]

theorem rotate_rotate (lastUnit : last.IsUnit) (firstUnit : first.IsUnit) (v : Vec3 α) :
    last.rotate (first.rotate v) = (last.product first).rotate v := by
  apply Vec3.quaternion_injective
  calc (last.rotate (first.rotate v)).quaternion
      = last.quaternion * (first.quaternion * v.quaternion * star first.quaternion) *
          star last.quaternion := by
        rw [lastUnit.quaternion_rotate, firstUnit.quaternion_rotate]
    _ = (last.product first).quaternion * v.quaternion *
          star (last.product first).quaternion := by
        rw [quaternion_product, StarMul.star_mul]
        simp only [mul_assoc]
    _ = ((last.product first).rotate v).quaternion :=
        ((lastUnit.product firstUnit).quaternion_rotate v).symm

theorem rotate_reversed (unit : rotor.IsUnit) (v : Vec3 α) :
    rotor.reversed.rotate (rotor.rotate v) = v := by
  apply Vec3.quaternion_injective
  calc (rotor.reversed.rotate (rotor.rotate v)).quaternion
      = star rotor.quaternion * (rotor.quaternion * v.quaternion * star rotor.quaternion) *
          rotor.quaternion := by
        rw [unit.reversed.quaternion_rotate, unit.quaternion_rotate, quaternion_reversed, star_star]
    _ = (star rotor.quaternion * rotor.quaternion) * v.quaternion *
          (star rotor.quaternion * rotor.quaternion) := by
        simp only [mul_assoc]
    _ = v.quaternion := by
        rw [unit.star_mul, one_mul, mul_one]

/-- A rotation by a unit rotor is the conjugation by its quaternion, of which no scalar part remains.
It keeps inner and outer products and its axis. Rotations follow one another as their quaternions
are multiplied, and the opposite axis takes a rotation back. -/
theorem rotation_laws (unit : rotor.IsUnit) :
    (∀ v, rotor.quaternion * v.quaternion * star rotor.quaternion =
      (rotor.rotate v).quaternion) ∧
    (∀ v w, (rotor.rotate v).dot (rotor.rotate w) = v.dot w) ∧
    (∀ v w, (rotor.rotate v).cross (rotor.rotate w) = rotor.rotate (v.cross w)) ∧
    rotor.rotate rotor.axis = rotor.axis ∧
    (∀ last : Rotor α, last.IsUnit →
      (last.product rotor).quaternion = last.quaternion * rotor.quaternion ∧
        (last.product rotor).IsUnit ∧
        ∀ v, last.rotate (rotor.rotate v) = (last.product rotor).rotate v) ∧
    ∀ v, rotor.reversed.rotate (rotor.rotate v) = v ∧
      rotor.rotate (rotor.reversed.rotate v) = v := by
  refine ⟨fun v => (unit.quaternion_rotate v).symm, unit.dot_rotate, unit.cross_rotate,
    rotor.rotate_axis, ?_, fun v => ⟨unit.rotate_reversed v, ?_⟩⟩
  · intro last lastUnit
    exact ⟨quaternion_product last rotor, lastUnit.product unit, lastUnit.rotate_rotate unit⟩
  · have back := unit.reversed.rotate_reversed v
    rwa [reversed_reversed] at back

/-- A third of a turn about a diagonal of space, and then a turn about the second axis. -/
theorem rotation_laws_diagonal :
    let rotor : Rotor ℚ := ⟨1 / 2, ⟨1 / 2, 1 / 2, 1 / 2⟩⟩
    let last : Rotor ℚ := ⟨3 / 5, ⟨0, 4 / 5, 0⟩⟩
    rotor.IsUnit ∧ last.IsUnit ∧ rotor.rotate ⟨1, 2, 3⟩ = ⟨3, 1, 2⟩ ∧
      last.product rotor = ⟨-1 / 10, ⟨7 / 10, 7 / 10, -1 / 10⟩⟩ ∧
      (last.product rotor).rotate ⟨1, 2, 3⟩ = ⟨27 / 25, 1, -86 / 25⟩ ∧
      rotor.reversed.rotate ⟨3, 1, 2⟩ = ⟨1, 2, 3⟩ := by
  intro rotor last
  have unit : rotor.IsUnit := by norm_num [rotor, IsUnit, Vec3.dot]
  have lastUnit : last.IsUnit := by norm_num [last, IsUnit, Vec3.dot]
  have rotated : rotor.rotate ⟨1, 2, 3⟩ = ⟨3, 1, 2⟩ := by decide +kernel
  obtain ⟨-, -, -, -, composed, undone⟩ := rotation_laws unit
  refine ⟨unit, lastUnit, rotated, by decide +kernel, ?_, ?_⟩
  · rw [← (composed last lastUnit).2.2, rotated]
    decide +kernel
  · rw [← rotated]
    exact (undone _).1

end IsUnit

end Topiary.Rotor
