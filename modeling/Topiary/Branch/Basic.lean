import Topiary.Geometry.Vec3
import Topiary.Value

set_option autoImplicit false

/-!
# Branches

A tree is a branch: one segment of wood and the branches that grow from it, in the
order in which they were drawn. A segment names its parent by id. Ids are paths: the
root is `root`, and the child in position `i` of a segment is its id followed by a
dash and `i`.
-/

namespace Topiary

structure Segment (α : Type) where
  id : String
  /-- The id of the parent as a text, or null for the root. A tree from a document may hold any
  value here. -/
  parentId : Value
  start : Vec3 α
  finish : Vec3 α
  /-- The number of brackets open where the segment was drawn. -/
  depth : Int

inductive Branch (α : Type) where
  | node (segment : Segment α) (children : List (Branch α))

/-! ## Ids -/

def rootId : String := "root"

def joinId (parentId position : String) : String :=
  parentId ++ "-" ++ position

def idOfChild (parentId : String) (position : Nat) : String :=
  joinId parentId (toString position)

namespace Segment

variable {α β : Type}

/-- The placeholder from which the trunk grows; it has no extent and lies outside every
bracket. -/
def root [Scalar α] : Segment α :=
  ⟨rootId, .null, Vec3.origin, Vec3.origin, -1⟩

def length [Scalar α] (segment : Segment α) : α :=
  (segment.finish - segment.start).length

def map (f : α → β) (segment : Segment α) : Segment β :=
  { segment with start := segment.start.map f, finish := segment.finish.map f }

end Segment

namespace Branch

variable {α β : Type}

/-! ## Parts -/

def segment : Branch α → Segment α
  | .node segment _ => segment

def children : Branch α → List (Branch α)
  | .node _ children => children

def id (branch : Branch α) : String :=
  branch.segment.id

def isLeaf (branch : Branch α) : Bool :=
  branch.children.isEmpty

def carrying (branch : Branch α) (children : List (Branch α)) : Branch α :=
  .node branch.segment children

@[simp] theorem segment_node (segment : Segment α) (children : List (Branch α)) :
    (node segment children).segment = segment := rfl

@[simp] theorem children_node (segment : Segment α) (children : List (Branch α)) :
    (node segment children).children = children := rfl

@[simp] theorem id_node (segment : Segment α) (children : List (Branch α)) :
    (node segment children).id = segment.id := rfl

@[simp] theorem segment_carrying (branch : Branch α) (children : List (Branch α)) :
    (branch.carrying children).segment = branch.segment := rfl

@[simp] theorem children_carrying (branch : Branch α) (children : List (Branch α)) :
    (branch.carrying children).children = children := rfl

@[simp] theorem carrying_children (branch : Branch α) :
    branch.carrying branch.children = branch := by
  cases branch; rfl

/-! ## Size -/

mutual

def size : Branch α → Nat
  | .node _ children => 1 + sizeAll children

def sizeAll : List (Branch α) → Nat
  | [] => 0
  | branch :: rest => branch.size + sizeAll rest

end

@[simp] theorem size_node (segment : Segment α) (children : List (Branch α)) :
    (node segment children).size = 1 + sizeAll children := by
  simp only [size]

@[simp] theorem sizeAll_nil : sizeAll ([] : List (Branch α)) = 0 := by
  simp only [sizeAll]

@[simp] theorem sizeAll_cons (branch : Branch α) (rest : List (Branch α)) :
    sizeAll (branch :: rest) = branch.size + sizeAll rest := by
  simp only [sizeAll]

theorem size_eq (branch : Branch α) : branch.size = 1 + sizeAll branch.children := by
  cases branch; simp

@[simp] theorem sizeAll_append (first second : List (Branch α)) :
    sizeAll (first ++ second) = sizeAll first + sizeAll second := by
  induction first with
  | nil => simp
  | cons branch rest inductionHypothesis => simp [inductionHypothesis]; omega

@[simp] theorem sizeAll_reverse (branches : List (Branch α)) :
    sizeAll branches.reverse = sizeAll branches := by
  induction branches with
  | nil => simp
  | cons branch rest inductionHypothesis => simp [inductionHypothesis]; omega

theorem sizeAll_filter_le (keep : Branch α → Bool) (branches : List (Branch α)) :
    sizeAll (branches.filter keep) ≤ sizeAll branches := by
  induction branches with
  | nil => simp
  | cons branch rest inductionHypothesis =>
    rw [List.filter_cons]
    split
    · simp only [sizeAll_cons]; omega
    · simp only [sizeAll_cons]; omega

/-! ## Coordinates -/

mutual

def map (f : α → β) : Branch α → Branch β
  | .node segment children => .node (segment.map f) (mapAll f children)

def mapAll (f : α → β) : List (Branch α) → List (Branch β)
  | [] => []
  | branch :: rest => branch.map f :: mapAll f rest

end

end Branch

end Topiary
