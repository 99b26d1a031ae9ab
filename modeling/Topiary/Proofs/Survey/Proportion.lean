import Topiary.Proofs.Survey.Removal
import Topiary.Proofs.Branch.Outline
import Topiary.Proofs.Geometry.Rotation

set_option autoImplicit false

/-!
# Lengths in proportion

With all coordinates multiplied by one factor, squares of lengths are multiplied by its
square, and lengths by its magnitude where they can be measured exactly. A share of such
lengths stays what it was.
-/

namespace Topiary

variable {α : Type} [ExactScalar α]

namespace Segment

theorem squaredLength_scaled (factor : α) (segment : Segment α) :
    (segment.map (factor * ·)).squaredLength = factor * factor * segment.squaredLength := by
  have way : (segment.map (factor * ·)).finish - (segment.map (factor * ·)).start =
      (segment.finish - segment.start).scale factor := by
    ext <;> exact (mul_sub factor _ _).symm
  simp only [squaredLength, way, Vec3.dot, Vec3.scale]
  ring

theorem length_scaled {segment : Segment α} {side : α} (factor : α)
    (square : segment.squaredLength = side * side) :
    (segment.map (factor * ·)).length = |factor| * segment.length := by
  have scaledSquare : (segment.map (factor * ·)).squaredLength =
      (factor * side) * (factor * side) := by
    rw [squaredLength_scaled, square]
    ring
  rw [length_of_squaredLength scaledSquare, length_of_squaredLength square, abs_mul]

end Segment

namespace Branch

theorem lengthOf_scaled {branches : List (Branch α)} {side : α} (factor : α)
    (even : ∀ branch ∈ branches, branch.segment.squaredLength = side * side) :
    lengthOf (branches.map (map (factor * ·))) = |factor| * lengthOf branches := by
  rw [lengthOf, lengthOf, ← List.sum_map_mul_left, List.map_map]
  congr 1
  apply List.map_congr_left
  intro branch member
  rw [Function.comp_apply, segment_map]
  exact Segment.length_scaled factor (even branch member)

end Branch

namespace Comparison

open Branch

/-- Two comparisons whose lengths are in one proportion give the same share. -/
theorem fractionRemoved_congr {full pruned otherFull otherPruned : Branch α} {ratio : α}
    (positive : 0 < ratio)
    (lengthFull : (ofTrees otherFull otherPruned).lengthFull =
      ratio * (ofTrees full pruned).lengthFull)
    (lengthRemoved : (ofTrees otherFull otherPruned).lengthRemoved =
      ratio * (ofTrees full pruned).lengthRemoved) :
    (ofTrees otherFull otherPruned).fractionRemoved = (ofTrees full pruned).fractionRemoved := by
  rcases fractionRemoved_cases full pruned with ⟨long, share⟩ | ⟨lengthless, none⟩
  · rcases fractionRemoved_cases otherFull otherPruned with ⟨-, otherShare⟩ | ⟨otherless, -⟩
    · rw [share, otherShare, lengthFull, lengthRemoved, mul_div_mul_left _ _ positive.ne']
    · rw [lengthFull] at otherless
      exact absurd otherless (mul_pos positive long).ne'
  · rcases fractionRemoved_cases otherFull otherPruned with ⟨otherLong, -⟩ | ⟨-, otherNone⟩
    · rw [lengthFull, lengthless, mul_zero] at otherLong
      exact absurd otherLong (lt_irrefl 0)
    · rw [none, otherNone]

theorem fractionRemoved_scaled {tree : Branch α} {side factor : α} (distinct : tree.DistinctIds)
    (even : ∀ branch ∈ tree.descendants, branch.segment.squaredLength = side * side)
    (positive : 0 < factor) (gone : IdSet) :
    let scaled := tree.map (factor * ·)
    (ofTrees scaled (scaled.without gone)).fractionRemoved =
      (ofTrees tree (tree.without gone)).fractionRemoved := by
  intro scaled
  have full : lengthOf scaled.descendants = |factor| * lengthOf tree.descendants := by
    rw [descendants_map, lengthOf_scaled factor even]
  have evenLeft := forall_descendants_without distinct gone
    (fun segment => segment.squaredLength = side * side) even
  have pruned : lengthOf (scaled.without gone).descendants =
      |factor| * lengthOf (tree.without gone).descendants := by
    rw [without_map distinct, descendants_map, lengthOf_scaled factor evenLeft]
  apply fractionRemoved_congr (abs_pos.mpr positive.ne')
  · rw [lengthFull_ofTrees, lengthFull_ofTrees, full]
  · rw [lengthRemoved_ofTrees, lengthRemoved_ofTrees, full, pruned, mul_sub]

end Comparison

end Topiary
