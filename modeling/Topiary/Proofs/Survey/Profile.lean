import Mathlib.Data.List.SplitBy
import Topiary.Proofs.Survey.Sums
import Topiary.Proofs.Branch.Visible

set_option autoImplicit false

/-!
# The profile by depth

Rows in ascending order of depth fall into runs of equal depth. Whatever depths occur, and
in whatever order, there is one run for each of them, and it holds the rows of that
depth in their order; so nothing is lost or counted twice between the levels.
-/

namespace Topiary

/-- What ascends and has no two neighbours alike ascends strictly. -/
theorem pairwise_lt_of_isChain_ne {numbers : List Int} (ascending : numbers.Pairwise (· ≤ ·))
    (different : numbers.IsChain (· ≠ ·)) : numbers.Pairwise (· < ·) := by
  rw [← List.isChain_iff_pairwise] at ascending ⊢
  induction numbers with
  | nil => exact .nil
  | cons first rest ih =>
      cases rest with
      | nil => exact .singleton first
      | cons second rest =>
          obtain ⟨atMost, ascendingRest⟩ := List.isChain_cons_cons.mp ascending
          obtain ⟨notEqual, differentRest⟩ := List.isChain_cons_cons.mp different
          exact List.isChain_cons_cons.mpr
            ⟨lt_of_le_of_ne atMost notEqual, ih ascendingRest differentRest⟩

/-- What ascends strictly ends with its greatest number. -/
theorem getLast?_eq_max? {ascending numbers : List Int} (strict : ascending.Pairwise (· < ·))
    (same : ∀ number, number ∈ ascending ↔ number ∈ numbers) :
    ascending.getLast? = numbers.max? := by
  cases last : ascending.getLast? with
  | none =>
      have none : numbers = [] := by
        rw [List.getLast?_eq_none_iff] at last
        simpa [last, List.eq_nil_iff_forall_not_mem] using same
      rw [none]
      rfl
  | some greatest =>
      obtain ⟨front, rfl⟩ := List.getLast?_eq_some_iff.mp last
      symm
      rw [List.max?_eq_some_iff]
      refine ⟨(same greatest).mp (by simp), ?_⟩
      intro number member
      rcases List.mem_append.mp ((same number).mpr member) with earlier | atEnd
      · exact ((List.pairwise_append.mp strict).2.2 number earlier greatest (by simp)).le
      · exact (List.mem_singleton.mp atEnd).le

namespace DepthLevel

variable {α : Type} {rows : List (Row α)}

/-! ## Runs of equal depth -/

def atMost (left right : Row α) : Bool :=
  left.segment.depth ≤ right.segment.depth

theorem atMost_trans (first second third : Row α) (before : atMost first second = true)
    (after : atMost second third = true) : atMost first third = true := by
  simp only [atMost, decide_eq_true_eq] at before after ⊢
  exact before.trans after

theorem atMost_total (left right : Row α) : (atMost left right || atMost right left) = true := by
  simpa [atMost] using le_total left.segment.depth right.segment.depth

theorem flatten_groups (rows : List (Row α)) : (groups rows).flatten = rows.mergeSort atMost :=
  List.flatten_splitBy _ _

theorem flatten_groups_perm (rows : List (Row α)) : (groups rows).flatten.Perm rows := by
  rw [flatten_groups]
  exact List.mergeSort_perm rows atMost

def rowsAt (rows : List (Row α)) (depth : Int) : List (Row α) :=
  rows.filter fun row => row.segment.depth = depth

theorem rowsAt_mergeSort (rows : List (Row α)) (depth : Int) :
    rowsAt (rows.mergeSort atMost) depth = rowsAt rows depth := by
  have level : ∀ row ∈ rowsAt rows depth, row.segment.depth = depth :=
    fun row member => of_decide_eq_true (List.mem_filter.mp member).2
  have ordered : (rowsAt rows depth).Pairwise fun left right => atMost left right = true :=
    List.pairwise_of_forall_mem_list fun left leftMember right rightMember => by
      simp [atMost, level left leftMember, level right rightMember]
  have fewer : (rowsAt rows depth).Sublist (rows.mergeSort atMost) :=
    List.sublist_mergeSort atMost_trans atMost_total ordered List.filter_sublist
  have filtered := fewer.filter fun row => decide (row.segment.depth = depth)
  have twice : (rowsAt rows depth).filter (fun row => decide (row.segment.depth = depth)) =
      rowsAt rows depth :=
    List.filter_eq_self.mpr fun row member => decide_eq_true (level row member)
  rw [twice] at filtered
  exact (filtered.eq_of_length
    (((List.mergeSort_perm rows atMost).filter _).length_eq.symm)).symm

/-- Some rows, all of the same depth. -/
structure IsRun (depth : Int) (run : List (Row α)) : Prop where
  nonempty : run ≠ []
  all : ∀ row ∈ run, row.segment.depth = depth

def depthOf (run : List (Row α)) : Int :=
  (run.head?.map fun row => row.segment.depth).getD 0

theorem isRun_of_mem_groups {run : List (Row α)} (member : run ∈ groups rows) :
    IsRun (depthOf run) run := by
  have chain := List.isChain_of_mem_splitBy member
  have nonempty := List.ne_nil_of_mem_splitBy member
  cases run with
  | nil => exact absurd rfl nonempty
  | cons first rest =>
      have equal : ((first :: rest).map fun row => row.segment.depth).IsChain (· = ·) :=
        (List.isChain_map _).mpr (chain.imp fun left right same => eq_of_beq same)
      rw [List.isChain_iff_pairwise, List.map_cons, List.pairwise_cons] at equal
      refine ⟨nonempty, ?_⟩
      intro row rowMember
      rcases List.mem_cons.mp rowMember with rfl | later
      · rfl
      · exact (equal.1 _ (List.mem_map_of_mem later)).symm

/-- The runs come in strictly ascending order of depth. -/
theorem pairwise_depths (rows : List (Row α)) :
    ((groups rows).map depthOf).Pairwise (· < ·) := by
  apply pairwise_lt_of_isChain_ne
  · have sorted := List.pairwise_mergeSort atMost_trans atMost_total rows
    rw [← flatten_groups, List.pairwise_flatten] at sorted
    refine List.pairwise_map.mpr (sorted.2.imp_of_mem ?_)
    intro left right leftMember rightMember ordered
    have leftRun := isRun_of_mem_groups leftMember
    have rightRun := isRun_of_mem_groups rightMember
    obtain ⟨low, lowMember⟩ := List.exists_mem_of_ne_nil _ leftRun.nonempty
    obtain ⟨high, highMember⟩ := List.exists_mem_of_ne_nil _ rightRun.nonempty
    rw [← leftRun.all low lowMember, ← rightRun.all high highMember]
    exact of_decide_eq_true (ordered low lowMember high highMember)
  · refine (List.isChain_map depthOf).mpr ?_
    refine (List.isChain_getLast_head_splitBy _ _).imp_of_mem_imp ?_
    rintro left right leftMember rightMember ⟨leftNonempty, rightNonempty, different⟩ same
    have last := (isRun_of_mem_groups leftMember).all _ (List.getLast_mem leftNonempty)
    have first := (isRun_of_mem_groups rightMember).all _ (List.head_mem rightNonempty)
    rw [last, first, beq_eq_false_iff_ne] at different
    exact different same

theorem eq_rowsAt_of_mem_groups {run : List (Row α)} (member : run ∈ groups rows) :
    run = rowsAt rows (depthOf run) := by
  have ascending := pairwise_depths rows
  have runs : ∀ other ∈ groups rows, IsRun (depthOf other) other :=
    fun other otherMember => isRun_of_mem_groups otherMember
  rw [← rowsAt_mergeSort, ← flatten_groups]
  obtain ⟨front, back, split⟩ := List.append_of_mem member
  rw [split] at ascending runs ⊢
  simp only [List.map_append, List.map_cons, List.pairwise_append, List.pairwise_cons] at ascending
  have elsewhere : ∀ others : List (List (Row α)), (∀ other ∈ others, IsRun (depthOf other) other ∧
      depthOf other ≠ depthOf run) → rowsAt others.flatten (depthOf run) = [] := by
    intro others apart
    rw [rowsAt, List.filter_eq_nil_iff]
    intro row rowMember
    obtain ⟨other, otherMember, inOther⟩ := List.mem_flatten.mp rowMember
    obtain ⟨isRun, different⟩ := apart other otherMember
    simpa [isRun.all row inOther] using different
  have own : rowsAt run (depthOf run) = run := by
    rw [rowsAt, List.filter_eq_self]
    exact fun row rowMember => decide_eq_true ((runs run (by simp)).all row rowMember)
  have before : rowsAt front.flatten (depthOf run) = [] := by
    refine elsewhere front fun other otherMember => ⟨runs other (by simp [otherMember]), ?_⟩
    exact (ascending.2.2 _ (List.mem_map_of_mem otherMember) _ List.mem_cons_self).ne
  have after : rowsAt back.flatten (depthOf run) = [] := by
    refine elsewhere back fun other otherMember => ⟨runs other (by simp [otherMember]), ?_⟩
    exact (ascending.2.1.1 _ (List.mem_map_of_mem otherMember)).ne'
  have parts : rowsAt (front ++ run :: back).flatten (depthOf run) =
      rowsAt front.flatten (depthOf run) ++
        (rowsAt run (depthOf run) ++ rowsAt back.flatten (depthOf run)) := by
    simp [rowsAt]
  rw [parts, before, own, after, List.nil_append, List.append_nil]

theorem mem_depths_iff {depth : Int} :
    depth ∈ (groups rows).map depthOf ↔ ∃ row ∈ rows, row.segment.depth = depth := by
  constructor
  · intro member
    obtain ⟨run, runMember, rfl⟩ := List.mem_map.mp member
    have isRun := isRun_of_mem_groups runMember
    obtain ⟨row, rowMember⟩ := List.exists_mem_of_ne_nil _ isRun.nonempty
    have known : row ∈ rows :=
      (flatten_groups_perm rows).mem_iff.mp (List.mem_flatten_of_mem runMember rowMember)
    exact ⟨row, known, isRun.all row rowMember⟩
  · rintro ⟨row, member, rfl⟩
    obtain ⟨run, runMember, inRun⟩ :=
      List.mem_flatten.mp ((flatten_groups_perm rows).mem_iff.mpr member)
    exact List.mem_map.mpr ⟨run, runMember, ((isRun_of_mem_groups runMember).all row inRun).symm⟩

/-! ## Levels -/

variable [Scalar α]

def levelAt (rows : List (Row α)) (depth : Int) : DepthLevel α :=
  ⟨depth, (rowsAt rows depth).length,
    Summation.compensated (Row.numericLengths (rowsAt rows depth))⟩

theorem ofRows?_of_mem_groups {run : List (Row α)} (member : run ∈ groups rows) :
    ofRows? run = some (levelAt rows (depthOf run)) := by
  have nonempty := (isRun_of_mem_groups member).nonempty
  rw [levelAt, ← eq_rowsAt_of_mem_groups member]
  cases run with
  | nil => exact absurd rfl nonempty
  | cons first rest => rfl

/-- The profile has one level for each depth, made up of all rows of that depth. -/
theorem profile_eq (tree : Branch α) :
    profile tree =
      ((groups (Row.table tree)).map depthOf).map (levelAt (Row.table tree)) := by
  rw [profile, List.map_map, List.filterMap_eq_map_iff_forall_eq_some]
  exact fun run member => ofRows?_of_mem_groups member

theorem map_depth_profile (tree : Branch α) :
    (profile tree).map DepthLevel.depth = (groups (Row.table tree)).map depthOf := by
  rw [profile_eq, List.map_map]
  exact List.map_id _

theorem eq_levelAt_of_mem_profile {tree : Branch α} {level : DepthLevel α}
    (member : level ∈ profile tree) : level = levelAt (Row.table tree) level.depth := by
  rw [profile_eq] at member
  obtain ⟨depth, -, rfl⟩ := List.mem_map.mp member
  rfl

theorem map_profile_eq_map_groups {β : Type} (ofLevel : DepthLevel α → β) (tree : Branch α) :
    (profile tree).map ofLevel = (groups (Row.table tree)).map fun run =>
      ofLevel ⟨depthOf run, run.length, Summation.compensated (Row.numericLengths run)⟩ := by
  rw [profile_eq, List.map_map, List.map_map]
  apply List.map_congr_left
  intro run member
  simp only [Function.comp, levelAt, ← eq_rowsAt_of_mem_groups member]

end DepthLevel

/-! ## Branches of one depth -/

namespace Branch

variable {α : Type}

theorem descendants_eq_tail (tree : Branch α) : tree.descendants = tree.preorder.tail := by
  rw [← traverse_eq_preorder, traverse_eq_descendants, List.tail_cons]

def atDepth (tree : Branch α) (depth : Int) : List (Branch α) :=
  tree.preorder.tail.filter fun branch => branch.segment.depth = depth

theorem rowsAt_table [Scalar α] (tree : Branch α) (depth : Int) :
    DepthLevel.rowsAt (Row.table tree) depth = (tree.atDepth depth).map Row.ofBranch := by
  rw [DepthLevel.rowsAt, Row.table, List.filter_map, descendants_eq_tail, atDepth]
  rfl

end Branch

namespace DepthLevel

variable {α : Type}

/-- Levels that part the segments below the top of a tree by depth, in agreement with its
statistics. -/
structure PartsSegments [Scalar α] (levels : List (DepthLevel α)) (tree : Branch α) : Prop where
  ascending : (levels.map DepthLevel.depth).Pairwise (· < ·)
  occurring : ∀ depth, depth ∈ levels.map DepthLevel.depth ↔
    ∃ branch ∈ tree.preorder.tail, branch.segment.depth = depth
  counted : ∀ level ∈ levels,
    level.segments = (tree.atDepth level.depth).length ∧ 0 < level.segments
  total : (levels.map DepthLevel.segments).sum = (Statistics.ofTree tree).segments
  deepest : (levels.map DepthLevel.depth).getLast? = (Statistics.ofTree tree).maxDepth
  empty : levels = [] ↔ (Statistics.ofTree tree).maxDepth = none

theorem occurring_profile [Scalar α] (tree : Branch α) (depth : Int) :
    depth ∈ (profile tree).map DepthLevel.depth ↔
      ∃ branch ∈ tree.preorder.tail, branch.segment.depth = depth := by
  rw [map_depth_profile, mem_depths_iff, Row.table, Branch.descendants_eq_tail]
  constructor
  · rintro ⟨row, member, atDepth⟩
    obtain ⟨branch, branchMember, rfl⟩ := List.mem_map.mp member
    exact ⟨branch, branchMember, atDepth⟩
  · rintro ⟨branch, member, atDepth⟩
    exact ⟨Row.ofBranch branch, List.mem_map_of_mem member, atDepth⟩

theorem partsSegments_profile [Scalar α] (tree : Branch α) :
    PartsSegments (profile tree) tree := by
  have ascending := pairwise_depths (Row.table tree)
  rw [← map_depth_profile] at ascending
  have deepest : ((profile tree).map DepthLevel.depth).getLast? =
      (Statistics.ofTree tree).maxDepth := by
    refine getLast?_eq_max? ascending fun depth => ?_
    rw [occurring_profile, Branch.descendants_eq_tail, List.mem_map]
  refine ⟨ascending, occurring_profile tree, ?_, ?_, deepest, ?_⟩
  · intro level member
    have whole := congrArg DepthLevel.segments (eq_levelAt_of_mem_profile member)
    rw [levelAt, Branch.rowsAt_table, List.length_map] at whole
    refine ⟨whole, ?_⟩
    obtain ⟨branch, branchMember, atDepth⟩ :=
      (occurring_profile tree level.depth).mp (List.mem_map_of_mem member)
    rw [whole]
    exact List.length_pos_of_mem (List.mem_filter.mpr ⟨branchMember, decide_eq_true atDepth⟩)
  · have lengths := (flatten_groups_perm (Row.table tree)).length_eq
    rw [List.length_flatten, Row.table, List.length_map] at lengths
    rw [map_profile_eq_map_groups]
    exact lengths
  · rw [← deepest, List.getLast?_eq_none_iff, List.map_eq_nil_iff]

/-! ## Lengths -/

/-- Levels that part the length of a tree by depth. -/
structure PartsLength [ExactScalar α] (levels : List (DepthLevel α)) (tree : Branch α) : Prop where
  measured : ∀ level ∈ levels, level.totalLength = Branch.lengthOf (tree.atDepth level.depth)
  total : (levels.map DepthLevel.totalLength).sum = (Statistics.ofTree tree).totalLength

theorem partsLength_profile [ExactScalar α] (tree : Branch α) :
    PartsLength (profile tree) tree := by
  constructor
  · intro level member
    have whole := congrArg DepthLevel.totalLength (eq_levelAt_of_mem_profile member)
    rw [levelAt, Summation.compensated_eq, Row.numericLengths_eq, Branch.rowsAt_table,
      List.map_map] at whole
    exact whole
  · have lengths := ((flatten_groups_perm (Row.table tree)).map Row.length).sum_eq
    rw [List.map_flatten, List.sum_flatten, List.map_map, Row.table, List.map_map] at lengths
    rw [map_profile_eq_map_groups, Branch.totalLength_ofTree]
    simp only [Summation.compensated_eq, Row.numericLengths_eq]
    exact lengths

/-- The profile of a tree parts its segments by depth in any arithmetic, whatever ids and depths
they have, and their length in an exact one. -/
theorem profile_parts :
    (∀ {α : Type} [Scalar α] (tree : Branch α), PartsSegments (profile tree) tree) ∧
      ∀ {α : Type} [ExactScalar α] (tree : Branch α), PartsLength (profile tree) tree :=
  ⟨partsSegments_profile, partsLength_profile⟩

end DepthLevel

end Topiary
