import Topiary.Branch.Document
import Topiary.Proofs.Branch.Cutting

set_option autoImplicit false

/-!
# Trees from their flat form

The flat form of a tree names the children of a segment by their ids. A child stands later
in the list than its parent, so a tree is put together from the end of the list: when an
entry comes, the branches that it names have come before it.
-/

namespace Topiary

variable {α β : Type}

theorem mapM_map_eq_some {write : α → β} {read : β → Option α} {items : List α}
    (back : ∀ item ∈ items, read (write item) = some item) :
    (items.map write).mapM read = some items := by
  induction items with
  | nil => rfl
  | cons item rest ih =>
      have others := ih fun other member => back other (List.mem_cons_of_mem _ member)
      rw [List.map_cons, List.mapM_cons, back item List.mem_cons_self, others]
      rfl

/-! ## Putting a tree together -/

/-- The branches of which the entries are the tops. The children of an entry are looked up by their
ids among the branches of later entries. -/
def Entry.branches? : List (Entry α) → Option (List (Branch α))
  | [] => some []
  | entry :: later => do
    let branches ← branches? later
    let children ← entry.childIds.mapM fun id => branches.find? fun branch => branch.id == id
    some (.node entry.segment children :: branches)

def Branch.ofEntries? (entries : List (Entry α)) : Option (Branch α) :=
  (Entry.branches? entries).bind List.head?

namespace Branch

/-- In this list the children of every branch are found by their ids behind the branch. -/
def Findable : List (Branch α) → Prop
  | [] => True
  | branch :: later =>
    (∀ child ∈ branch.children, (later.find? fun other => other.id == child.id) = some child) ∧
      Findable later

theorem Findable.of_append {front later : List (Branch α)} (findable : Findable (front ++ later)) :
    Findable later := by
  induction front with
  | nil => exact findable
  | cons branch rest ih => exact ih findable.2

theorem findable_preorderAll {pending : List (Branch α)} (distinct : (idsOfAll pending).Nodup) :
    Findable (preorderAll pending) := by
  induction pending using pending_induction with
  | nil =>
      rw [preorderAll]
      trivial
  | visit branch rest ih =>
      rw [idsOfAll, preorderAll_cons, List.map_cons, List.nodup_cons] at distinct
      rw [preorderAll_cons]
      -- Behind a branch stand its children with all that grows from them, and then the others.
      refine ⟨?_, ih distinct.2⟩
      intro child member
      apply find?_of_nodup distinct.2
      rw [preorderAll_append, preorderAll_eq_flatMap]
      exact List.mem_append_left _ (List.mem_flatMap.mpr ⟨child, member, self_mem_preorder child⟩)

theorem DistinctIds.findable {tree : Branch α} (distinct : tree.DistinctIds) :
    Findable tree.preorder := by
  rw [← preorderAll_single]
  exact findable_preorderAll ((distinctIds_iff tree).mp distinct)

theorem Findable.branches? {branches : List (Branch α)} (findable : Findable branches) :
    Entry.branches? (branches.map Entry.ofBranch) = some branches := by
  induction branches with
  | nil => rfl
  | cons branch later ih =>
      obtain ⟨found, others⟩ := findable
      cases branch with
      | node segment children =>
          have named : (children.map Branch.id).mapM (fun id =>
              later.find? fun other => other.id == id) = some children := mapM_map_eq_some found
          rw [List.map_cons, Entry.branches?, ih others, Entry.ofBranch, children_node]
          simp only [Option.bind_eq_bind, Option.bind_some, named]
          rfl

theorem ofEntries?_entries {tree : Branch α} (distinct : tree.DistinctIds) :
    ofEntries? tree.entries = some tree := by
  rw [ofEntries?, entries, traverse_eq_preorder, distinct.findable.branches?, preorder_eq]
  rfl

/-- An entry names each of its children by an id that occurs once, and later in the list. -/
theorem entries_childIds {tree : Branch α} (distinct : tree.DistinctIds)
    {front later : List (Entry α)} {entry : Entry α}
    (listed : tree.entries = front ++ entry :: later) {id : String} (named : id ∈ entry.childIds) :
    (tree.entries.map Entry.id).count id = 1 ∧ ∃ child ∈ later, child.id = id := by
  have stands : ∃ child ∈ later, child.id = id := by
    rw [entries, traverse_eq_preorder] at listed
    obtain ⟨before, rest, walk, -, restEntries⟩ := List.map_eq_append_iff.mp listed
    obtain ⟨branch, behind, rfl, rfl, rfl⟩ := List.map_eq_cons_iff.mp restEntries
    obtain ⟨child, member, rfl⟩ := List.mem_map.mp named
    have findable := distinct.findable
    rw [walk] at findable
    have found := findable.of_append.1 child member
    exact ⟨_, List.mem_map_of_mem (List.mem_of_find?_eq_some found), rfl⟩
  refine ⟨List.count_eq_one_of_mem ?_ ?_, stands⟩
  · rwa [entries, Entry.map_id_ofBranch]
  · obtain ⟨child, member, rfl⟩ := stands
    rw [listed]
    exact List.mem_map_of_mem (List.mem_append_right _ (List.mem_cons_of_mem _ member))

end Branch

/-! ## Reading the documents of entries -/

def Vec3.ofValue? : Value → Option (Vec3 Float)
  | .list [.real x, .real y, .real z] => some ⟨x, y, z⟩
  | _ => none

def Value.text? : Value → Option String
  | .text content => some content
  | _ => none

def Value.int? : Value → Option Int
  | .int number => some number
  | _ => none

def Value.list? : Value → Option (List Value)
  | .list items => some items
  | _ => none

def Entry.ofValue? (document : Value) : Option (Entry Float) := do
  let id ← (document.get? "id").bind Value.text?
  let parentId ← document.get? "parent_id"
  let start ← (document.get? "start").bind Vec3.ofValue?
  let finish ← (document.get? "end").bind Vec3.ofValue?
  let depth ← (document.get? "depth").bind Value.int?
  let children ← (document.get? "children").bind Value.list?
  let childIds ← children.mapM Value.text?
  some ⟨⟨id, parentId, start, finish, depth⟩, childIds⟩

theorem Entry.ofValue?_toValue (entry : Entry Float) : ofValue? entry.toValue = some entry := by
  have fields : ofValue? entry.toValue =
      ((entry.childIds.map Value.text).mapM Value.text?).bind fun childIds =>
        some ⟨entry.segment, childIds⟩ := rfl
  have ids : (entry.childIds.map Value.text).mapM Value.text? = some entry.childIds :=
    mapM_map_eq_some fun _ _ => rfl
  rw [fields, ids]
  rfl

end Topiary
