import Topiary.Branch.Pruning
import Topiary.Parameter

set_option autoImplicit false

/-!
# Records of pruning

Which ids count as pruned. Segments have texts as ids; a record from outside may hold
other values besides, which no segment has but which are counted and listed. Where a
record should be there may even be a value that is no set; this shows only when ids
are added or looked up.
-/

namespace Topiary

structure PruneRecord where
  ids : IdSet
  /-- The values that are no texts, each once. -/
  strays : List Value

namespace PruneRecord

def empty : PruneRecord := ⟨∅, []⟩

def add (record : PruneRecord) (value : Value) : Except Fault PruneRecord :=
  match value with
  | .text id => .ok { record with ids := record.ids.insert id }
  | .list _ | .dict _ => .error (.notAKey value)
  | _ =>
    if record.strays.any value.agrees then .ok record
    else .ok { record with strays := record.strays ++ [value] }

def ofValue (value : Value) : Except Fault PruneRecord :=
  match value.asParts with
  | .ok parts => parts.foldlM add empty
  | .error fault => .error fault

def size (record : PruneRecord) : Nat :=
  record.ids.size + record.strays.length

def including (record : PruneRecord) (ids : IdSet) : PruneRecord :=
  { record with ids := record.ids ∪ ids }

/-- Everything recorded in ascending order. Texts have an order and numbers have one; two values
of other kinds have none. -/
def toList (record : PruneRecord) : Except Fault (List Value) :=
  if record.strays.isEmpty then .ok (record.ids.toList.map .text)
  else if record.size = 1 then .ok record.strays
  else if record.ids.isEmpty && record.strays.all fun value => value.number?.isSome then
    .ok (record.strays.mergeSort Value.notAfter)
  else .error .unordered

end PruneRecord

/-- A tree without what a record names. A record that names no segment still has the tree put
together anew, which shows where ids repeat. -/
def Branch.trimmed {α : Type} (tree : Branch α) (record : PruneRecord) : Branch α :=
  if record.strays.isEmpty then tree.without record.ids else tree.rebuilt record.ids

/-! ## Records of any kind -/

namespace Value

/-- Whether a value counts as nothing: it has no parts, or is zero. -/
def isVoid (value : Value) : Bool :=
  match value with
  | .null => true
  | _ => value.parts?.any List.isEmpty || value.agrees (.int 0)

/-- How ids are looked up in a value: in a text as parts of it, in a list as items, in a
dictionary as keys. -/
def lookupOfIds? (value : Value) : Option (String → Bool) :=
  match value with
  | .text content => some fun id => content.contains id
  | _ => value.parts?.map fun parts id => parts.any fun part => (Value.text id).agrees part

end Value

inductive GivenRecord where
  | set (record : PruneRecord)
  | other (value : Value)

namespace GivenRecord

def IsSet (given : GivenRecord) : Prop :=
  ∃ record, given = .set record

def including (given : GivenRecord) (ids : IdSet) : Except Fault GivenRecord :=
  match given with
  | .set record => .ok (.set (record.including ids))
  | .other value => .error (.notASet value)

/-- A tree without what is recorded. A void record is not looked at, and no record is if the tree
has no branches. -/
def trim {α : Type} (given : GivenRecord) (tree : Branch α) : Except Fault (Branch α) :=
  match given with
  | .set record => .ok (tree.without record.ids)
  | .other value =>
    if value.isVoid then .ok (tree.carrying tree.children)
    else if tree.children.isEmpty then .ok (tree.rebuilt ∅)
    else
      match value.lookupOfIds? with
      | some holds => .ok (tree.rebuilt (IdSet.ofIds ((tree.traverse.map Branch.id).filter holds)))
      | none => .error (.notASequence value)

end GivenRecord

end Topiary
