import Topiary.Branch.Document
import Topiary.Survey.Table

set_option autoImplicit false

/-!
# Surveys as documents
-/

namespace Topiary

def Statistics.toValue (statistics : Statistics Float) : Value :=
  .dict [
    ("n_segments", .int statistics.segments),
    ("n_tips", .int statistics.tips),
    ("max_depth", match statistics.maxDepth with
      | some depth => .int depth
      | none => .null),
    ("total_length", .real statistics.totalLength)]

def Comparison.toValue (comparison : Comparison Float) : Value :=
  .dict [
    ("n_segments_full", .int comparison.segmentsFull),
    ("n_segments_pruned", .int comparison.segmentsPruned),
    ("n_removed", .int comparison.segmentsRemoved),
    ("length_full", .real comparison.lengthFull),
    ("length_pruned", .real comparison.lengthPruned),
    ("length_removed", .real comparison.lengthRemoved),
    ("fraction_removed", .real comparison.fractionRemoved)]

structure Sheet where
  columns : List String
  rows : List (List Value)

namespace Sheet

def toValue (sheet : Sheet) : Value :=
  .dict [
    ("columns", .list (sheet.columns.map .text)),
    ("rows", .list (sheet.rows.map .list))]

end Sheet

/-- A cell of a column of real numbers: what is absent is a non-number there. -/
def Value.realCell (cell : Value) : Value :=
  match cell with
  | .int number => .real ((Numeral.nearestInt? number).getD (0.0 / 0.0))
  | .null => .real (0.0 / 0.0)
  | _ => cell

def Value.fitsRealColumn (cell : Value) : Bool :=
  match cell with
  | .int number => -(Nat.pow 2 63 : Int) ≤ number && number < (Nat.pow 2 64 : Int)
  | .real _ | .null => true
  | _ => false

/-- The cells of a column, with all numbers real if one of them is or if one is absent. A column
that holds anything else stays as it is. -/
def Value.unifiedColumn (cells : List Value) : List Value :=
  let isReal := cells.any fun cell => cell matches .real _
  let isNumeric := isReal || cells.any fun cell => cell matches .int _
  let hasGaps := cells.any fun cell => cell matches .null
  if cells.all fitsRealColumn && isNumeric && (isReal || hasGaps) then cells.map realCell
  else cells

def Row.columns : List String :=
  ["id", "parent_id", "depth", "x0", "y0", "z0", "x1", "y1", "z1", "length", "n_children"]

def Row.cells (row : Row Float) (parent : Value) : List Value :=
  [.text row.segment.id, parent, .int row.segment.depth] ++
    row.segment.start.toList.map .real ++ row.segment.finish.toList.map .real ++
    [.real row.length, .int row.childCount]

def Branch.sheet (tree : Branch Float) : Sheet :=
  let rows := Row.table tree
  let parents := Value.unifiedColumn (rows.map fun row => row.segment.parentId)
  ⟨Row.columns, List.zipWith Row.cells rows parents⟩

def DepthLevel.columns : List String :=
  ["depth", "n_segments", "total_length"]

def DepthLevel.cells (level : DepthLevel Float) : List Value :=
  [.int level.depth, .int level.segments, .real level.totalLength]

def Branch.profileSheet (tree : Branch Float) : Sheet :=
  ⟨DepthLevel.columns, (DepthLevel.profile tree).map DepthLevel.cells⟩

/-- A short description of a branch: its id, its depth and the number of its children. -/
def Branch.describe {α : Type} (branch : Branch α) : String :=
  "BranchSegment(" ++ Text.quoted branch.id ++ ", depth=" ++ toString branch.segment.depth ++
    ", children=" ++ toString branch.children.length ++ ")"

end Topiary
