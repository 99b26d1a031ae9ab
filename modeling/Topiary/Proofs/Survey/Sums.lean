import Mathlib.Algebra.Order.BigOperators.Group.List
import Topiary.Proofs.Geometry.Exact
import Topiary.Survey.Table

set_option autoImplicit false

/-!
# Sums without rounding

In exact arithmetic nothing is lost, so a sum in halves and a compensated sum are the
plain sum, and every length is a number.
-/

namespace Topiary

variable {α : Type} [ExactScalar α]

namespace Summation

/-! ## In halves -/

theorem inOrder_eq (first : α) (terms : List α) : inOrder first terms = first + terms.sum := by
  induction terms generalizing first with
  | nil => simp [inOrder]
  | cons term rest ih =>
      have further := ih (first + term)
      simp only [inOrder, List.foldl_cons, List.sum_cons] at further ⊢
      rw [further, add_assoc]

theorem sum_zipWith_add {sums terms : List α} (sameLength : sums.length = terms.length) :
    (List.zipWith (fun sum term => sum + term) sums terms).sum = sums.sum + terms.sum := by
  induction sums generalizing terms with
  | nil =>
      cases terms with
      | nil => simp
      | cons => cases sameLength
  | cons sum sums ih =>
      cases terms with
      | nil => cases sameLength
      | cons term terms =>
          simp only [List.zipWith_cons_cons, List.sum_cons, ih (Nat.succ.inj sameLength)]
          ring

/-- The eight running sums stay eight, and with what is left over they make up the whole. -/
theorem addBlocks_eq {sums : List α} (terms : List α) (eight : sums.length = 8) :
    (addBlocks sums terms).1.length = 8 ∧
      (addBlocks sums terms).1.sum + (addBlocks sums terms).2.sum = sums.sum + terms.sum := by
  fun_induction addBlocks sums terms with
  | case1 sums terms enough ih =>
      have block : (terms.take 8).length = 8 := by simpa using enough
      have stillEight :
          (List.zipWith (fun sum term => sum + term) sums (terms.take 8)).length = 8 := by
        simp [eight, enough]
      obtain ⟨size, total⟩ := ih stillEight
      refine ⟨size, ?_⟩
      rw [total, sum_zipWith_add (eight.trans block.symm), add_assoc, List.sum_take_add_sum_drop]
  | case2 sums terms few => exact ⟨eight, rfl⟩

theorem joinSums_eq (sums : List α) : joinSums sums = sums.sum := by
  unfold joinSums
  split
  · simp only [List.sum_cons, List.sum_nil]
    ring
  · simp [inOrder_eq]

theorem ofBlock_eq (terms : List α) : ofBlock terms = terms.sum := by
  unfold ofBlock
  split
  · simp [inOrder_eq]
  · next many =>
    have eight : (terms.take 8).length = 8 := by
      simp
      omega
    obtain ⟨-, total⟩ := addBlocks_eq (terms.drop 8) eight
    rw [List.sum_take_add_sum_drop] at total
    simp only [inOrder_eq, joinSums_eq]
    exact total

theorem inHalves_eq (terms : List α) : inHalves terms = terms.sum := by
  fun_induction inHalves terms with
  | case1 terms long middle firstHalf secondHalf =>
      rw [firstHalf, secondHalf, List.sum_take_add_sum_drop]
  | case2 terms short => exact ofBlock_eq terms

/-! ## With compensation -/

/-- There is nothing to compensate for. -/
theorem addCompensated_eq (sum term : α) : addCompensated (sum, 0) term = (sum + term, 0) := by
  simp [addCompensated]

theorem compensated_eq (terms : List α) : compensated terms = terms.sum := by
  have run : ∀ sum : α, terms.foldl addCompensated (sum, 0) = (sum + terms.sum, 0) := by
    induction terms with
    | nil => simp
    | cons term rest ih =>
        intro sum
        rw [List.foldl_cons, addCompensated_eq, ih, List.sum_cons, add_assoc]
  simp [compensated, run]

end Summation

/-! ## Lengths -/

/-- The square of the length, for which no root is drawn. -/
def Segment.squaredLength {α : Type} [Scalar α] (segment : Segment α) : α :=
  (segment.finish - segment.start).dot (segment.finish - segment.start)

theorem Segment.length_nonneg (segment : Segment α) : 0 ≤ segment.length :=
  ExactScalar.squareRoot_nonneg _

theorem Segment.length_of_squaredLength {segment : Segment α} {side : α}
    (square : segment.squaredLength = side * side) : segment.length = |side| := by
  have length : segment.length = ExactScalar.squareRoot segment.squaredLength := rfl
  rw [length, square, ExactScalar.squareRoot_mul_self]

namespace Branch

def lengthOf (branches : List (Branch α)) : α :=
  (branches.map fun branch => branch.segment.length).sum

theorem lengthOf_nonneg (branches : List (Branch α)) : 0 ≤ lengthOf branches := by
  apply List.sum_nonneg
  intro length member
  obtain ⟨branch, -, rfl⟩ := List.mem_map.mp member
  exact branch.segment.length_nonneg

theorem lengthOf_mono {some all : List (Branch α)} (fewer : some.Sublist all) :
    lengthOf some ≤ lengthOf all := by
  apply (fewer.map _).sum_le_sum
  intro length member
  obtain ⟨branch, -, rfl⟩ := List.mem_map.mp member
  exact branch.segment.length_nonneg

theorem lengthOf_eq_of_segments {branches others : List (Branch α)}
    (same : branches.map segment = others.map segment) : lengthOf branches = lengthOf others := by
  have lengths := congrArg (List.map Segment.length) same
  rw [List.map_map, List.map_map] at lengths
  exact congrArg List.sum lengths

theorem lengthOf_eq_zero {branches : List (Branch α)}
    (short : ∀ branch ∈ branches, ¬ 0 < branch.segment.length) : lengthOf branches = 0 := by
  apply List.sum_eq_zero
  intro length member
  obtain ⟨branch, branchMember, rfl⟩ := List.mem_map.mp member
  exact le_antisymm (not_lt.mp (short branch branchMember)) branch.segment.length_nonneg

theorem lengthOf_eq_mul {branches : List (Branch α)} {length : α}
    (equal : ∀ branch ∈ branches, branch.segment.length = length) :
    lengthOf branches = branches.length * length := by
  rw [lengthOf, List.sum_eq_card_nsmul _ length (List.forall_mem_map.mpr equal), List.length_map,
    nsmul_eq_mul]

theorem totalLength_ofTree (tree : Branch α) :
    (Statistics.ofTree tree).totalLength = lengthOf tree.descendants :=
  Summation.inHalves_eq _

end Branch

namespace Row

theorem totalLength_map_ofBranch (branches : List (Branch α)) :
    totalLength (branches.map ofBranch) = Branch.lengthOf branches := by
  rw [totalLength, Summation.inHalves_eq, List.map_map]
  rfl

theorem numericLengths_eq (rows : List (Row α)) : numericLengths rows = rows.map Row.length := by
  simp [numericLengths]

end Row

end Topiary
