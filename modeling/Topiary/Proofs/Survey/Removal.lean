import Topiary.Proofs.Survey.Sums
import Topiary.Proofs.Branch.Cutting

set_option autoImplicit false

/-!
# What a comparison accounts for

A comparison never sees which segments were removed: it subtracts the numbers of one table
from those of another. Pruning parts the segments into those that are cut off and those
that stay as they are, so the differences are the number and the length of the former.
-/

namespace Topiary

namespace Branch

variable {α : Type} {tree : Branch α} {gone more : IdSet}

def removedBy (tree : Branch α) (gone : IdSet) : List (Branch α) :=
  tree.traverse.filter fun branch => tree.CutOff gone branch.id

/-- The top is never cut off. -/
theorem removedBy_eq (distinct : tree.DistinctIds) (gone : IdSet) :
    tree.removedBy gone = tree.descendants.filter fun branch => tree.CutOff gone branch.id := by
  have topStays : ¬ tree.CutOff gone tree.id := not_cutOff_id distinct gone
  rw [removedBy, traverse_eq_descendants, List.filter_cons_of_neg (by simpa using topStays)]

theorem segments_descendants_without (distinct : tree.DistinctIds) (gone : IdSet) :
    (tree.without gone).descendants.map segment =
      (tree.descendants.filter fun branch => ¬ tree.CutOff gone branch.id).map segment := by
  have topStays : ¬ tree.CutOff gone tree.id := not_cutOff_id distinct gone
  have shown := shown_eq_filter distinct gone
  rw [shown_eq_visible, ← traverse_eq_preorder, traverse_eq_descendants,
    List.filter_cons_of_pos (by simpa using topStays)] at shown
  rw [without_eq distinct, ← segments_visible, (List.cons.inj shown).2]

/-- What holds of the segments below the top of a tree holds of those that pruning leaves there. -/
theorem forall_descendants_without (distinct : tree.DistinctIds) (gone : IdSet)
    (holds : Segment α → Prop) (all : ∀ branch ∈ tree.descendants, holds branch.segment) :
    ∀ branch ∈ (tree.without gone).descendants, holds branch.segment := by
  intro branch member
  have listed := List.mem_map_of_mem (f := Branch.segment) member
  rw [segments_descendants_without distinct] at listed
  obtain ⟨kept, keptMember, same⟩ := List.mem_map.mp listed
  rw [← same]
  exact all kept (List.mem_of_mem_filter keptMember)

theorem CutOff.mono {id : String} (subset : ∀ name ∈ gone, name ∈ more)
    (cutOff : tree.CutOff gone id) : tree.CutOff more id := by
  obtain ⟨ancestor, member, named, below⟩ := cutOff
  exact ⟨ancestor, member, subset _ named, below⟩

theorem removedBy_sublist (tree : Branch α) (subset : ∀ name ∈ gone, name ∈ more) :
    (tree.removedBy gone).Sublist (tree.removedBy more) := by
  apply List.monotone_filter_right
  intro branch cutOff
  simp only [decide_eq_true_eq] at cutOff ⊢
  exact cutOff.mono subset

/-! ## A tree with lengths -/

/-- A trunk of length three with two arms: one of length two that goes on by one, and one of length
four. -/
def sapling : Branch Nat :=
  .node ⟨"root", .null, ⟨0, 0, 0⟩, ⟨0, 0, 0⟩, -1⟩ [
    .node ⟨"root-0", .text "root", ⟨0, 0, 0⟩, ⟨0, 3, 0⟩, 0⟩ [
      .node ⟨"root-0-0", .text "root-0", ⟨0, 3, 0⟩, ⟨2, 3, 0⟩, 1⟩ [
        .node ⟨"root-0-0-0", .text "root-0-0", ⟨2, 3, 0⟩, ⟨2, 4, 0⟩, 1⟩ []],
      .node ⟨"root-0-1", .text "root-0", ⟨0, 3, 0⟩, ⟨0, 7, 0⟩, 0⟩ []]]

end Branch

namespace Comparison

open Branch

variable {α : Type} {tree : Branch α} {gone more : IdSet}

/-! ## Numbers of segments -/

structure CountsRemoved (comparison : Comparison α) (tree : Branch α) (gone : IdSet) : Prop where
  full : comparison.segmentsFull = tree.descendants.length
  removed : comparison.segmentsRemoved = (tree.removedBy gone).length
  balance : (comparison.segmentsFull : Int) =
    comparison.segmentsPruned + comparison.segmentsRemoved

theorem countsRemoved [Scalar α] (distinct : tree.DistinctIds) (gone : IdSet) :
    (ofTrees tree (tree.without gone)).CountsRemoved tree gone := by
  have kept := congrArg List.length (segments_descendants_without distinct gone)
  have parted := List.length_eq_length_filter_add (l := tree.descendants)
    fun branch => decide (tree.CutOff gone branch.id)
  have removed := congrArg List.length (removedBy_eq distinct gone)
  have full : (ofTrees tree (tree.without gone)).segmentsFull = tree.descendants.length :=
    List.length_map _
  have pruned : (ofTrees tree (tree.without gone)).segmentsPruned =
      (tree.without gone).descendants.length := List.length_map _
  have difference : (ofTrees tree (tree.without gone)).segmentsRemoved =
      (ofTrees tree (tree.without gone)).segmentsFull -
        (ofTrees tree (tree.without gone)).segmentsPruned := rfl
  simp only [List.length_map, decide_not] at kept
  refine ⟨full, ?_, ?_⟩
  · rw [difference]
    omega
  · rw [difference]
    omega

/-! ## Lengths -/

end Comparison

namespace Branch

variable {α : Type} [ExactScalar α] {tree : Branch α} {gone more : IdSet}

/-- What is cut off and what stays are together as long as the whole tree. -/
theorem lengthOf_removedBy_add (distinct : tree.DistinctIds) (gone : IdSet) :
    lengthOf (tree.removedBy gone) + lengthOf (tree.without gone).descendants =
      lengthOf tree.descendants := by
  have parted := List.filter_append_perm (fun branch => decide (tree.CutOff gone branch.id))
    tree.descendants
  have whole := (parted.map fun branch => branch.segment.length).sum_eq
  rw [List.map_append, List.sum_append] at whole
  rw [lengthOf_eq_of_segments (segments_descendants_without distinct gone),
    removedBy_eq distinct gone]
  simpa [lengthOf] using whole

end Branch

namespace Comparison

open Branch

variable {α : Type} [ExactScalar α] {tree : Branch α} {gone more : IdSet}

theorem lengthFull_ofTrees (full pruned : Branch α) :
    (ofTrees full pruned).lengthFull = lengthOf full.descendants :=
  Row.totalLength_map_ofBranch _

theorem lengthRemoved_ofTrees (full pruned : Branch α) :
    (ofTrees full pruned).lengthRemoved =
      lengthOf full.descendants - lengthOf pruned.descendants :=
  congrArg₂ (· - ·) (Row.totalLength_map_ofBranch _) (Row.totalLength_map_ofBranch _)

/-- The share is a quotient only where the divisor is positive. -/
theorem fractionRemoved_cases (full pruned : Branch α) :
    let comparison := ofTrees full pruned
    (0 < comparison.lengthFull ∧
        comparison.fractionRemoved = comparison.lengthRemoved / comparison.lengthFull) ∨
      (comparison.lengthFull = 0 ∧ comparison.fractionRemoved = 0) := by
  intro comparison
  have nonneg : 0 ≤ comparison.lengthFull := by
    rw [lengthFull_ofTrees]
    exact lengthOf_nonneg _
  have share : comparison.fractionRemoved =
      if Scalar.less Scalar.zero comparison.lengthFull then
        comparison.lengthRemoved / comparison.lengthFull else Scalar.zero := rfl
  rw [share]
  by_cases positive : 0 < comparison.lengthFull
  · exact .inl ⟨positive, if_pos (Scalar.less_eq_true_iff.mpr positive)⟩
  · have none : comparison.lengthFull = 0 := le_antisymm (not_lt.mp positive) nonneg
    exact .inr ⟨none, if_neg (mt Scalar.less_eq_true_iff.mp positive)⟩

structure MeasuresRemoved (comparison : Comparison α) (tree : Branch α) (gone : IdSet) :
    Prop where
  full : comparison.lengthFull = lengthOf tree.descendants
  removed : comparison.lengthRemoved = lengthOf (tree.removedBy gone)
  quotient : (0 < comparison.lengthFull ∧
      comparison.fractionRemoved = comparison.lengthRemoved / comparison.lengthFull) ∨
    (comparison.lengthFull = 0 ∧ comparison.fractionRemoved = 0)
  fraction_nonneg : 0 ≤ comparison.fractionRemoved
  fraction_le_one : comparison.fractionRemoved ≤ 1
  nothing : (∀ branch ∈ tree.removedBy gone, ¬ 0 < branch.segment.length) →
    comparison.fractionRemoved = 0
  lengthless : comparison.lengthFull = 0 → comparison.fractionRemoved = 0
  everything : (∀ branch ∈ tree.descendants, tree.CutOff gone branch.id) →
    0 < comparison.lengthFull → comparison.fractionRemoved = 1

theorem removed_of_distinctIds (distinct : tree.DistinctIds) (gone : IdSet) :
    (ofTrees tree (tree.without gone)).lengthRemoved = lengthOf (tree.removedBy gone) := by
  rw [lengthRemoved_ofTrees, ← lengthOf_removedBy_add distinct gone, add_sub_cancel_right]

theorem lengthOf_removedBy_le (distinct : tree.DistinctIds) (gone : IdSet) :
    lengthOf (tree.removedBy gone) ≤ lengthOf tree.descendants := by
  have kept := lengthOf_nonneg (tree.without gone).descendants
  have whole := lengthOf_removedBy_add distinct gone
  linarith

theorem measuresRemoved (distinct : tree.DistinctIds) (gone : IdSet) :
    (ofTrees tree (tree.without gone)).MeasuresRemoved tree gone := by
  have full := lengthFull_ofTrees tree (tree.without gone)
  have removed := removed_of_distinctIds distinct gone
  have quotient := fractionRemoved_cases tree (tree.without gone)
  have nonneg := lengthOf_nonneg (tree.removedBy gone)
  have atMost := lengthOf_removedBy_le distinct gone
  rw [← removed] at nonneg atMost
  rw [← full] at atMost
  generalize ofTrees tree (tree.without gone) = comparison at *
  refine ⟨full, removed, quotient, ?_, ?_, ?_, ?_, ?_⟩
  · rcases quotient with ⟨positive, share⟩ | ⟨-, none⟩
    · rw [share]
      exact div_nonneg nonneg positive.le
    · exact none.ge
  · rcases quotient with ⟨positive, share⟩ | ⟨-, none⟩
    · rw [share]
      exact (div_le_one positive).mpr atMost
    · rw [none]
      exact zero_le_one
  · intro short
    rcases quotient with ⟨-, share⟩ | ⟨-, none⟩
    · rw [share, removed, lengthOf_eq_zero short, zero_div]
    · exact none
  · intro lengthless
    rcases quotient with ⟨positive, -⟩ | ⟨-, none⟩
    · exact absurd lengthless positive.ne'
    · exact none
  · intro all positive
    have same : tree.removedBy gone = tree.descendants := by
      rw [removedBy_eq distinct gone, List.filter_eq_self]
      exact fun branch member => decide_eq_true (all branch member)
    rcases quotient with ⟨-, share⟩ | ⟨lengthless, -⟩
    · rw [share, removed, same, ← full, div_self positive.ne']
    · exact absurd lengthless positive.ne'

theorem lengthRemoved_mono (distinct : tree.DistinctIds) (subset : ∀ id ∈ gone, id ∈ more) :
    (ofTrees tree (tree.without gone)).lengthRemoved ≤
      (ofTrees tree (tree.without more)).lengthRemoved := by
  rw [removed_of_distinctIds distinct, removed_of_distinctIds distinct]
  exact lengthOf_mono (tree.removedBy_sublist subset)

theorem fractionRemoved_mono (distinct : tree.DistinctIds) (subset : ∀ id ∈ gone, id ∈ more) :
    (ofTrees tree (tree.without gone)).fractionRemoved ≤
      (ofTrees tree (tree.without more)).fractionRemoved := by
  have lengths := lengthRemoved_mono distinct subset
  have measured := measuresRemoved distinct gone
  have measuredMore := measuresRemoved distinct more
  rcases measured.quotient with ⟨positive, share⟩ | ⟨-, none⟩
  · rcases measuredMore.quotient with ⟨-, shareMore⟩ | ⟨lengthless, -⟩
    · rw [share, shareMore, measured.full, measuredMore.full]
      rw [measured.full] at positive
      exact div_le_div_of_nonneg_right lengths positive.le
    · rw [measuredMore.full, ← measured.full] at lengthless
      exact absurd lengthless positive.ne'
  · rw [none]
    exact measuredMore.fraction_nonneg

/-- The comparison of a tree without repeated ids with what a set of ids leaves of it accounts for
every segment, and a larger set takes away no less. The numbers are right in any arithmetic, the
lengths and their share in an exact one. -/
theorem ofTrees_without :
    (∀ {α : Type} [Scalar α] {tree : Branch α}, tree.DistinctIds → ∀ gone : IdSet,
      (ofTrees tree (tree.without gone)).CountsRemoved tree gone ∧
        ∀ more : IdSet, (∀ id ∈ gone, id ∈ more) →
          (ofTrees tree (tree.without gone)).segmentsRemoved ≤
            (ofTrees tree (tree.without more)).segmentsRemoved) ∧
    ∀ {α : Type} [ExactScalar α] {tree : Branch α}, tree.DistinctIds → ∀ gone : IdSet,
      (ofTrees tree (tree.without gone)).MeasuresRemoved tree gone ∧
        ∀ more : IdSet, (∀ id ∈ gone, id ∈ more) →
          (ofTrees tree (tree.without gone)).lengthRemoved ≤
              (ofTrees tree (tree.without more)).lengthRemoved ∧
            (ofTrees tree (tree.without gone)).fractionRemoved ≤
              (ofTrees tree (tree.without more)).fractionRemoved := by
  constructor
  · intro α _ tree distinct gone
    refine ⟨countsRemoved distinct gone, fun more subset => ?_⟩
    rw [(countsRemoved distinct gone).removed, (countsRemoved distinct more).removed]
    exact Int.ofNat_le.mpr (tree.removedBy_sublist subset).length_le
  · intro α _ tree distinct gone
    exact ⟨measuresRemoved distinct gone, fun more subset =>
      ⟨lengthRemoved_mono distinct subset, fractionRemoved_mono distinct subset⟩⟩

/-- A set that names the top, and a segment without the one that grows from it. -/
theorem ofTrees_without_sapling :
    let gone := IdSet.ofIds ["root", "root-0-0"]
    let counted := sapling.map Float.ofNat
    let measured := sapling.map (Nat.cast : Nat → ℚ)
    counted.DistinctIds ∧ (ofTrees counted (counted.without gone)).segmentsRemoved = 2 ∧
      measured.DistinctIds ∧ (ofTrees measured (measured.without gone)).lengthRemoved = 3 ∧
      (ofTrees measured (measured.without gone)).fractionRemoved = 3 / 10 := by
  intro gone counted measured
  have distinct : sapling.DistinctIds := by decide
  obtain ⟨counts, -⟩ := ofTrees_without.1 (distinct.map Float.ofNat) gone
  obtain ⟨measures, -⟩ := ofTrees_without.2 (distinct.map (Nat.cast : Nat → ℚ)) gone
  have full : lengthOf measured.descendants = 10 := by
    rw [descendants_eq_preorderAll]
    decide +kernel
  have removed : lengthOf (measured.removedBy gone) = 3 := by
    decide +kernel
  refine ⟨distinct.map _, ?_, distinct.map _, ?_, ?_⟩
  · rw [counts.removed]
    decide +kernel
  · rw [measures.removed, removed]
  · rcases measures.quotient with ⟨-, share⟩ | ⟨lengthless, -⟩
    · rw [share, measures.removed, measures.full, full, removed]
    · rw [measures.full, full] at lengthless
      cases lengthless

end Comparison

end Topiary
