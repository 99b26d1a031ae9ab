import Topiary.Proofs.Branch.Entries
import Topiary.Proofs.Branch.Nested
import Topiary.Proofs.Branch.Visible
import Topiary.Service.Answer

set_option autoImplicit false

/-!
# The exports of a tree

A tree goes out as a nested document, as the list of segments of an answer, and as the
table of segments. The nested document is read record by record, each before those of its
children. These are the records of the answer, and without the first of them the rows of
the table.
-/

namespace Topiary

/-! ## Reading nested documents -/

namespace Value

theorem sizeOf_lookup_lt {key : String} {value : Value} {fields : List (String × Value)}
    (found : fields.lookup key = some value) : sizeOf value < sizeOf fields := by
  induction fields with
  | nil => cases found
  | cons field rest ih =>
      obtain ⟨name, own⟩ := field
      rw [List.lookup_cons] at found
      split at found
      · obtain rfl : own = value := Option.some.inj found
        simp
        omega
      · have := ih found
        simp
        omega

def childDocuments (document : Value) : List Value :=
  ((document.get? "children").bind list?).getD []

theorem sizeOf_childDocuments_lt {document child : Value}
    (member : child ∈ document.childDocuments) : sizeOf child < sizeOf document := by
  cases document with
  | dict fields =>
      rw [childDocuments, get?] at member
      cases found : fields.lookup "children" with
      | none =>
          rw [found] at member
          cases member
      | some value =>
          rw [found] at member
          cases value with
          | list items =>
              have inField : sizeOf child < sizeOf items := List.sizeOf_lt_of_mem member
              have inDocument := sizeOf_lookup_lt found
              simp at inDocument ⊢
              omega
          | _ => cases member
  | _ => cases member

/-- The record of a nested document: the ids of its children stand in place of their documents. -/
def record (document : Value) : Value :=
  match document with
  | .dict fields => .dict (fields.map fun (key, value) =>
      (key, if key = "children" then .list (document.childDocuments.filterMap (·.get? "id"))
        else value))
  | _ => document

def records (document : Value) : List Value :=
  document.record :: document.childDocuments.attach.flatMap fun child => child.1.records
termination_by sizeOf document
decreasing_by exact sizeOf_childDocuments_lt child.2

theorem records_eq (document : Value) :
    document.records = document.record :: document.childDocuments.flatMap records := by
  rw [records]
  simp

end Value

section Nested

variable (segment : Segment Float) (children : List Value)

theorem Segment.childDocuments_toValue : (segment.toValue children).childDocuments = children :=
  rfl

theorem Segment.record_toValue :
    (segment.toValue children).record =
      segment.toValue (children.filterMap (·.get? "id")) := by
  rw [Value.record.eq_def, childDocuments_toValue]
  rfl

theorem Branch.get?_id_nested (branch : Branch Float) :
    branch.nested.get? "id" = some (.text branch.id) := by
  cases branch with
  | node segment children =>
      rw [nested]
      rfl

theorem Branch.filterMap_id_nested (branches : List (Branch Float)) :
    (branches.map nested).filterMap (·.get? "id") = (branches.map id).map .text := by
  rw [List.filterMap_map, List.map_map, List.filterMap_eq_map_iff_forall_eq_some]
  exact fun branch _ => branch.get?_id_nested

/-- The records of a nested document are the entries of its tree. -/
theorem Branch.records_nested (tree : Branch Float) :
    tree.nested.records = tree.preorder.map (Entry.toValue ∘ Entry.ofBranch) := by
  induction tree with
  | node segment children ih =>
      rw [nested, Value.records_eq, Segment.record_toValue, filterMap_id_nested,
        Segment.childDocuments_toValue, List.flatMap_map, preorder_node, List.map_cons,
        List.map_flatMap, List.flatMap_congr ih]
      rfl

end Nested

/-! ## Rows from records -/

def Row.ofEntry {α : Type} [Scalar α] (entry : Entry α) : Row α :=
  ⟨entry.segment, entry.segment.length, entry.childIds.length⟩

/-- The cells of the row for a record, for what stands for its parent. -/
def Row.cells? (record parent : Value) : Option (List Value) :=
  (Entry.ofValue? record).map fun entry => (Row.ofEntry entry).cells parent

theorem Row.ofEntry_ofBranch {α : Type} [Scalar α] (branch : Branch α) :
    ofEntry (.ofBranch branch) = ofBranch branch := by
  rw [ofEntry, Entry.ofBranch, List.length_map]
  rfl

theorem Row.cells?_toValue (entry : Entry Float) (parent : Value) :
    cells? entry.toValue parent = some ((ofEntry entry).cells parent) := by
  rw [cells?, entry.ofValue?_toValue, Option.map_some]

theorem Row.table_eq {α : Type} [Scalar α] (tree : Branch α) :
    table tree = tree.entries.tail.map ofEntry := by
  rw [table, Branch.entries, Branch.traverse_eq_descendants, List.map_cons, List.tail_cons,
    List.map_map]
  exact List.map_congr_left fun branch _ => (ofEntry_ofBranch branch).symm

theorem Entry.filterMap_parentId (entries : List (Entry Float)) :
    (entries.map toValue).filterMap (·.get? "parent_id") =
      entries.map fun entry => entry.segment.parentId := by
  rw [List.filterMap_map, List.filterMap_eq_map_iff_forall_eq_some]
  exact fun _ _ => rfl

/-- The rows of the table for the entries of a tree, with what the column of parents makes of their
parents. -/
theorem Branch.rows_sheet (tree : Branch Float) :
    tree.sheet.rows = List.zipWith (fun entry parent => (Row.ofEntry entry).cells parent)
      tree.entries.tail
      (Value.unifiedColumn (tree.entries.tail.map fun entry => entry.segment.parentId)) := by
  rw [sheet, Row.table_eq, List.map_map, List.zipWith_map_left]
  rfl

/-- A column in which nothing but texts and gaps stands is left as it is. -/
theorem Value.unifiedColumn_eq {cells : List Value}
    (texts : ∀ cell ∈ cells, cell = .null ∨ ∃ content, cell = .text content) :
    unifiedColumn cells = cells := by
  apply if_neg
  intro numeric
  simp only [Bool.and_eq_true, Bool.or_eq_true, List.any_eq_true] at numeric
  obtain ⟨⟨-, ⟨cell, member, real⟩ | ⟨cell, member, int⟩⟩, -⟩ := numeric
  · rcases texts cell member with rfl | ⟨content, rfl⟩ <;> cases real
  · rcases texts cell member with rfl | ⟨content, rfl⟩ <;> cases int

/-- What the three exports of a tree have in common. -/
structure Branch.ExportsAgree (tree : Branch Float) : Prop where
  nested : tree.toValue = tree.nested
  listed : tree.toValue.records = tree.entries.map Entry.toValue
  answered : ∀ plan : Service.Plan,
    (Service.TreeAnswer.ofTree tree plan).map (·.toValue.get? "segments") =
      plan.symbolCount.map fun _ => some (.list tree.toValue.records)
  table : Row.table tree = tree.entries.tail.map Row.ofEntry
  sheet : tree.sheet.rows.map some = List.zipWith Row.cells? tree.toValue.records.tail
    (Value.unifiedColumn (tree.toValue.records.tail.filterMap (·.get? "parent_id")))
  /-- The ids of parents are texts, and then they stand in the table as in the records. -/
  parents : (∀ branch ∈ tree.descendants,
      branch.segment.parentId = .null ∨ ∃ id, branch.segment.parentId = .text id) →
    tree.sheet.rows.map some =
      tree.toValue.records.tail.map fun record =>
        (record.get? "parent_id").bind (Row.cells? record)

theorem Branch.exports_agree (tree : Branch Float) : tree.ExportsAgree := by
  have read : tree.toValue.records = tree.entries.map Entry.toValue := by
    rw [toValue_eq_nested, records_nested, entries, traverse_eq_preorder, List.map_map]
  constructor
  case nested => exact tree.toValue_eq_nested
  case listed => exact read
  case answered =>
    intro plan
    rw [read, Service.TreeAnswer.ofTree]
    cases plan.symbolCount <;> rfl
  case table => exact Row.table_eq tree
  case sheet =>
    rw [read, rows_sheet, ← List.map_tail, Entry.filterMap_parentId, List.map_zipWith,
      List.zipWith_map_left]
    congr 1
    funext entry parent
    exact (Row.cells?_toValue entry parent).symm
  case parents =>
    intro declared
    have texts : ∀ parent ∈ tree.entries.tail.map fun entry => entry.segment.parentId,
        parent = .null ∨ ∃ id, parent = .text id := by
      rw [entries, traverse_eq_descendants, List.map_cons, List.tail_cons, List.map_map]
      exact List.forall_mem_map.mpr declared
    rw [read, rows_sheet, Value.unifiedColumn_eq texts, ← List.map_tail, List.zipWith_map_right,
      List.zipWith_self, List.map_map, List.map_map]
    apply List.map_congr_left
    intro entry _
    exact (Row.cells?_toValue entry _).symm

end Topiary
