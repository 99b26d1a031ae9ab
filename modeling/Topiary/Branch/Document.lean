import Topiary.Branch.Traversal
import Topiary.Value

set_option autoImplicit false

/-!
# Trees as documents

A tree is written either nested, each segment holding the documents of its children,
or flat, as the list of its segments in the order of the walk with the ids of their
children.
-/

namespace Topiary

def Vec3.toValue (point : Vec3 Float) : Value :=
  .list (point.toList.map .real)

def Segment.toValue (segment : Segment Float) (children : List Value) : Value :=
  .dict [
    ("id", .text segment.id),
    ("parent_id", segment.parentId),
    ("start", segment.start.toValue),
    ("end", segment.finish.toValue),
    ("depth", .int segment.depth),
    ("children", .list children)]

structure Entry (α : Type) where
  segment : Segment α
  childIds : List String

namespace Entry

def ofBranch {α : Type} (branch : Branch α) : Entry α :=
  ⟨branch.segment, branch.children.map Branch.id⟩

def toValue (entry : Entry Float) : Value :=
  entry.segment.toValue (entry.childIds.map .text)

end Entry

/-! ## The nested form

The pages of a tree are written one for each segment. A page that is in place already still
gets the numbers of the pages of its children when its branch is visited.
-/

/-- A page that is being written: a segment with the numbers of the pages of its children. -/
structure Page (α : Type) where
  segment : Segment α
  childPages : Array Nat

namespace Page

variable {α : Type}

def blank (segment : Segment α) : Page α :=
  ⟨segment, #[]⟩

def noteChild (number : Nat) (page : Page α) : Page α :=
  { page with childPages := page.childPages.push number }

/-- The document of a page, for the documents of the pages by their numbers. -/
def toValue (page : Page Float) (document? : Nat → Option Value) : Value :=
  page.segment.toValue (page.childPages.toList.filterMap document?)

end Page

namespace Branch

/-- The pages that are there, and the branches still to be visited with the numbers of their
pages. -/
structure Writing (α : Type) where
  pages : Array (Page α)
  pending : List (Branch α × Nat)

namespace Writing

variable {α : Type}

def addChild (owner : Nat) (writing : Writing α) (child : Branch α) : Writing α :=
  let number := writing.pages.size
  { pages := (writing.pages.modify owner (Page.noteChild number)).push (.blank child.segment)
    pending := (child, number) :: writing.pending }

theorem sizeAll_addChildren (owner : Nat) (children : List (Branch α)) (writing : Writing α) :
    sizeAll ((children.foldl (addChild owner) writing).pending.map Prod.fst) =
      sizeAll children + sizeAll (writing.pending.map Prod.fst) := by
  induction children generalizing writing with
  | nil => simp
  | cons child rest inductionHypothesis =>
    simp only [List.foldl_cons, inductionHypothesis, addChild, List.map_cons, sizeAll_cons]
    omega

end Writing

def writeFrom {α : Type} (pages : Array (Page α)) (pending : List (Branch α × Nat)) :
    Array (Page α) :=
  match pending with
  | [] => pages
  | (branch, number) :: rest =>
    let writing := branch.children.foldl (Writing.addChild number) ⟨pages, rest⟩
    writeFrom writing.pages writing.pending
termination_by sizeAll (pending.map Prod.fst)
decreasing_by
  simp only [Writing.sizeAll_addChildren, List.map_cons, sizeAll_cons, size_eq branch]
  omega

/-- Adds the document of a page to those of the pages behind it, which stand in reverse order: the
last of `total` pages comes first. -/
def addDocument (total : Nat) (page : Page Float) (later : Array Value) : Array Value :=
  later.push (page.toValue fun number => later[total - 1 - number]?)

/-- The documents of pages, the last page first. A page stands before the pages of its children, so
their documents are there when its own is made. -/
def documents (pages : Array (Page Float)) : Array Value :=
  pages.foldr (addDocument pages.size) #[]

def entries {α : Type} (tree : Branch α) : List (Entry α) :=
  tree.traverse.map Entry.ofBranch

def toValue (tree : Branch Float) : Value :=
  ((documents (writeFrom #[.blank tree.segment] [(tree, 0)])).back?).getD .null

/-- Whether two trees have the same shape and agree in every field of every segment, for a given
agreement of coordinates and of parents. Two trees with the same order of segments and the same
numbers of children have the same shape. -/
def agrees {α : Type} (same : α → α → Bool) (sameParent : Value → Value → Bool)
    (left right : Branch α) : Bool :=
  let samePoint (p q : Vec3 α) := same p.x q.x && same p.y q.y && same p.z q.z
  let lefts := left.traverse
  let rights := right.traverse
  lefts.length == rights.length && (lefts.zip rights).all fun (a, b) =>
    a.id == b.id && sameParent a.segment.parentId b.segment.parentId &&
      samePoint a.segment.start b.segment.start &&
      samePoint a.segment.finish b.segment.finish &&
      a.segment.depth == b.segment.depth && a.children.length == b.children.length

def agreesAsRead (left right : Branch Float) : Bool :=
  left.agrees (fun a b => a == b) Value.agrees right

/-- Whether a tree agrees with one that was made from it. A coordinate agrees with itself even
if it is no number. -/
def agreesAsMade (left right : Branch Float) : Bool :=
  left.agrees (fun a b => a == b || (a.isNaN && b.isNaN)) (Value.agreesWith true) right

end Branch

end Topiary
