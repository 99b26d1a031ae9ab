import Topiary.Branch.Shelf

set_option autoImplicit false

/-!
# Arenas

While a tree is drawn, its segments lie in an arena by their ids, each with the ids of
the segments that were drawn from it. Children are drawn after their parents, so in
the reverse order of drawing every segment finds its children finished.
-/

namespace Topiary

structure Draft (α : Type) where
  segment : Segment α
  childIds : Array String

namespace Draft

variable {α : Type}

def bare (segment : Segment α) : Draft α :=
  ⟨segment, #[]⟩

def noteChild (id : String) (draft : Draft α) : Draft α :=
  { draft with childIds := draft.childIds.push id }

end Draft

abbrev Arena (α : Type) := Std.HashMap String (Draft α)

namespace Arena

variable {α : Type}

def initial [Scalar α] : Arena α :=
  (∅ : Arena α).insert rootId (Draft.bare Segment.root)

@[inline] def add (arena : Arena α) (parent : String) (segment : Segment α) : Arena α :=
  (arena.modify parent (Draft.noteChild segment.id)).insert segment.id (Draft.bare segment)

/-- Finishes the segments with the given ids one after another: each leaves the arena, takes its
children from the shelf and is put there itself. An id that is not where it is looked for is a
fault. -/
def freezeAll (arena : Arena α) (shelf : Branch.Shelf α) :
    List String → Except Fault (Arena α × Branch.Shelf α)
  | [] => .ok (arena, shelf)
  | id :: rest =>
    match arena[id]? with
    | none => .error (.unknownSegment id)
    | some draft =>
      match Branch.claimAll #[] shelf draft.childIds.toList with
      | .error fault => .error fault
      | .ok (children, remaining) =>
        freezeAll (arena.erase id)
          (remaining.insert id (.node draft.segment children.toList)) rest

/-- The tree of an arena whose segments were drawn in the given order. -/
def freeze (arena : Arena α) (order : List String) : Except Fault (Branch α) :=
  match freezeAll arena ∅ order.reverse with
  | .error fault => .error fault
  | .ok (_, shelf) =>
    match shelf[rootId]? with
    | some tree => .ok tree
    | none => .error (.unknownSegment rootId)

end Arena

end Topiary
