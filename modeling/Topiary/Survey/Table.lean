import Topiary.Survey.Statistics

set_option autoImplicit false

/-!
# The segment table

One row for each drawn segment, in the order of the walk, and two summaries made from
such rows: the profile by depth, and the comparison of a tree with a pruned one. Sums
over a table leave out lengths that are no numbers.
-/

namespace Topiary

structure Row (α : Type) where
  segment : Segment α
  length : α
  childCount : Nat

namespace Row

variable {α : Type}

def ofBranch [Scalar α] (branch : Branch α) : Row α :=
  ⟨branch.segment, branch.segment.length, branch.children.length⟩

def table [Scalar α] (tree : Branch α) : List (Row α) :=
  tree.descendants.map ofBranch

/-- The length of a row, or zero if it is no number. -/
def countedLength [Scalar α] (row : Row α) : α :=
  if Scalar.isNumber row.length then row.length else Scalar.zero

def totalLength [Scalar α] (rows : List (Row α)) : α :=
  Summation.inHalves (rows.map countedLength)

def numericLengths [Scalar α] (rows : List (Row α)) : List α :=
  (rows.filter fun row => Scalar.isNumber row.length).map Row.length

end Row

/-! ## The profile by depth -/

structure DepthLevel (α : Type) where
  depth : Int
  segments : Nat
  totalLength : α

namespace DepthLevel

variable {α : Type}

def ofRows? [Scalar α] (rows : List (Row α)) : Option (DepthLevel α) :=
  rows.head?.map fun first =>
    ⟨first.segment.depth, rows.length, Summation.compensated (Row.numericLengths rows)⟩

/-- The rows in groups of equal depth, in ascending order of depth. Within a group the rows keep
their order. -/
def groups (rows : List (Row α)) : List (List (Row α)) :=
  (rows.mergeSort fun left right => left.segment.depth ≤ right.segment.depth).splitBy
    fun left right => left.segment.depth == right.segment.depth

def profile [Scalar α] (tree : Branch α) : List (DepthLevel α) :=
  (groups (Row.table tree)).filterMap ofRows?

end DepthLevel

/-! ## The comparison with a pruned tree -/

structure Comparison (α : Type) where
  segmentsFull : Nat
  segmentsPruned : Nat
  segmentsRemoved : Int
  lengthFull : α
  lengthPruned : α
  lengthRemoved : α
  /-- The share of the removed length; zero where the full tree has no length. -/
  fractionRemoved : α

namespace Comparison

variable {α : Type}

def ofTrees [Scalar α] (full pruned : Branch α) : Comparison α :=
  let fullRows := Row.table full
  let prunedRows := Row.table pruned
  let lengthFull := Row.totalLength fullRows
  let lengthPruned := Row.totalLength prunedRows
  let lengthRemoved := lengthFull - lengthPruned
  { segmentsFull := fullRows.length
    segmentsPruned := prunedRows.length
    segmentsRemoved := (fullRows.length : Int) - prunedRows.length
    lengthFull := lengthFull
    lengthPruned := lengthPruned
    lengthRemoved := lengthRemoved
    fractionRemoved :=
      if Scalar.less Scalar.zero lengthFull then lengthRemoved / lengthFull else Scalar.zero }

end Comparison

end Topiary
