import Mathlib.Data.List.Nodup
import Topiary.Branch.Document
import Topiary.Proofs.Branch.Recursion

set_option autoImplicit false

/-!
# Pages hold trees

Pages show a branch at a number if its segment is on the page with this number and its
children are shown in order at the numbers noted there. What is written for the pending
branches shows them, and shown branches are read as nested documents.
-/

namespace Topiary.Branch

variable {α : Type}

def nested (branch : Branch Float) : Value :=
  match branch with
  | .node segment children => segment.toValue (children.map fun child => child.nested)

/-- The pages with and below a number hold a branch. The pages of its children follow one
another behind its own. -/
inductive Shown (pages : Array (Page α)) : Branch α → Nat → Prop where
  | node {segment : Segment α} {children : List (Branch α)} {number first : Nat}
      (behind : number < first)
      (page : pages[number]? = some ⟨segment, Array.range' first children.length⟩)
      (below : ∀ pair ∈ children.zipIdx first, Shown pages pair.1 pair.2) :
      Shown pages (.node segment children) number

/-! ## Adding the pages of children -/

namespace Writing

/-- What the pages and the pending branches are after the pages of some children were added to
those of a branch: `first` is the number of the first of them. -/
structure Extends (owner first : Nat) (children : List (Branch α)) (before after : Writing α) :
    Prop where
  size : after.pages.size = first + children.length
  pending : after.pending = (children.zipIdx first).reverse ++ before.pending
  blank : ∀ pair ∈ children.zipIdx first, after.pages[pair.2]? = some (.blank pair.1.segment)
  others : ∀ number < first, number ≠ owner → after.pages[number]? = before.pages[number]?
  owner : after.pages[owner]? = before.pages[owner]?.map fun page =>
    ⟨page.segment, page.childPages ++ Array.range' first children.length⟩

theorem extends_addChild {owner : Nat} (writing : Writing α) (there : owner < writing.pages.size)
    (child : Branch α) :
    Extends owner writing.pages.size [child] writing (writing.addChild owner child) where
  size := by simp [addChild]
  pending := by simp [addChild]
  blank := by simp [addChild, Array.getElem?_push]
  others number before other := by
    simp [addChild, Array.getElem?_push, Array.getElem?_modify, Nat.ne_of_lt before, other.symm]
  owner := by
    rw [addChild, Array.getElem?_push, Array.size_modify, if_neg (Nat.ne_of_lt there),
      Array.getElem?_modify, if_pos rfl]
    rfl

theorem extends_addChildren {owner : Nat} (writing : Writing α)
    (there : owner < writing.pages.size) (children : List (Branch α)) :
    Extends owner writing.pages.size children writing
      (children.foldl (addChild owner) writing) := by
  induction children generalizing writing with
  | nil =>
      exact ⟨rfl, rfl, fun _ member => (nomatch member), fun _ _ _ => rfl, by simp⟩
  | cons child rest ih =>
      have one := extends_addChild writing there child
      have grown : (writing.addChild owner child).pages.size = writing.pages.size + 1 := one.size
      have more := ih (writing.addChild owner child) (by omega)
      rw [grown] at more
      rw [List.foldl_cons]
      constructor
      case size =>
        rw [more.size, List.length_cons]
        omega
      case pending =>
        rw [more.pending, one.pending]
        simp
      case blank =>
        rw [List.zipIdx_cons, List.forall_mem_cons]
        refine ⟨?_, more.blank⟩
        rw [more.others _ (Nat.lt_succ_self _) (Nat.ne_of_gt there)]
        exact one.blank _ List.mem_cons_self
      case others =>
        intro number before other
        rw [more.others number (by omega) other, one.others number before other]
      case owner =>
        rw [more.owner, one.owner, Option.map_map]
        congr 1
        funext page
        simp [Array.range'_succ]

end Writing

/-! ## Visiting all pending branches -/

/-- Every pending branch has a blank page of its own. -/
structure Ready (pages : Array (Page α)) (pending : List (Branch α × Nat)) : Prop where
  blank : ∀ pair ∈ pending, pages[pair.2]? = some (.blank pair.1.segment)
  distinct : (pending.map Prod.snd).Nodup

namespace Ready

variable {pages : Array (Page α)} {pending rest : List (Branch α × Nat)} {branch : Branch α}
  {number : Nat}

theorem lt_size (ready : Ready pages pending) {pair : Branch α × Nat} (member : pair ∈ pending) :
    pair.2 < pages.size :=
  (Array.getElem?_eq_some_iff.mp (ready.blank pair member)).1

theorem visit (ready : Ready pages ((branch, number) :: rest)) {writing : Writing α}
    (added : Writing.Extends number pages.size branch.children ⟨pages, rest⟩ writing) :
    Ready writing.pages writing.pending := by
  have before : ∀ pair ∈ rest, pair.2 < pages.size := fun pair member =>
    ready.lt_size (List.mem_cons_of_mem _ member)
  obtain ⟨apart, distinct⟩ := List.nodup_cons.mp ready.distinct
  constructor
  · intro pair member
    rw [added.pending, List.mem_append, List.mem_reverse] at member
    rcases member with new | (old : pair ∈ rest)
    · exact added.blank pair new
    · have other : pair.2 ≠ number := fun same =>
        apart (List.mem_map.mpr ⟨pair, old, same⟩)
      rw [added.others pair.2 (before pair old) other]
      exact ready.blank pair (List.mem_cons_of_mem _ old)
  · rw [added.pending, List.map_append, List.map_reverse, List.zipIdx_map_snd]
    refine List.nodup_append.mpr ⟨List.nodup_reverse.mpr List.nodup_range', distinct, ?_⟩
    intro new newMember old oldMember same
    obtain ⟨pair, member, rfl⟩ := List.mem_map.mp oldMember
    have from_size := List.left_le_of_mem_range' (List.mem_reverse.mp newMember)
    exact absurd (before pair member) (by omega)

end Ready

/-- The pages of pending branches come to show them, and no other page changes. -/
theorem writeFrom_shown {pages : Array (Page α)} {pending : List (Branch α × Nat)}
    (ready : Ready pages pending) :
    (∀ number < pages.size, number ∉ pending.map Prod.snd →
        (writeFrom pages pending)[number]? = pages[number]?) ∧
      ∀ pair ∈ pending, Shown (writeFrom pages pending) pair.1 pair.2 := by
  fun_induction writeFrom pages pending with
  | case1 pages => exact ⟨fun _ _ _ => rfl, fun _ member => nomatch member⟩
  | case2 pages branch number rest writing ih =>
      have there : number < pages.size := ready.lt_size List.mem_cons_self
      have added : Writing.Extends number pages.size branch.children ⟨pages, rest⟩ writing :=
        Writing.extends_addChildren ⟨pages, rest⟩ there branch.children
      obtain ⟨unchanged, shown⟩ := ih (ready.visit added)
      have apart := (List.nodup_cons.mp ready.distinct).1
      -- A number in front of the new ones is pending only if it was before.
      have settled : ∀ other < pages.size, other ∉ rest.map Prod.snd →
          other ∉ writing.pending.map Prod.snd := by
        intro other before notPending
        rw [added.pending, List.map_append, List.map_reverse, List.zipIdx_map_snd, List.mem_append,
          List.mem_reverse]
        rintro (new | old)
        · have := List.left_le_of_mem_range' new
          omega
        · exact notPending old
      have grown : pages.size ≤ writing.pages.size := added.size ▸ Nat.le_add_right _ _
      constructor
      · intro other before notPending
        obtain ⟨notOwner, notRest⟩ := not_or.mp (List.mem_cons.not.mp notPending)
        rw [unchanged other (by omega) (settled other before notRest),
          added.others other before notOwner]
      · intro pair member
        rcases List.mem_cons.mp member with rfl | waiting
        · cases branch with
          | node segment children =>
              refine .node there ?_ fun pair member => shown pair ?_
              · rw [unchanged number (by omega) (settled number there apart), added.owner,
                  ready.blank _ List.mem_cons_self]
                simp [Page.blank]
              · rw [added.pending]
                exact List.mem_append_left _ (List.mem_reverse.mpr member)
        · apply shown
          rw [added.pending]
          exact List.mem_append_right _ waiting

/-! ## Reading pages -/

section Reading

variable {total number : Nat} {page : Page Float} {pages : Array (Page Float)}

theorem size_addDocuments (pages : List (Page Float)) :
    (pages.foldr (addDocument total) #[]).size = pages.length := by
  induction pages with
  | nil => rfl
  | cons page rest ih => rw [List.foldr_cons, addDocument, Array.size_push, ih, List.length_cons]

/-- A document stays where it is when the documents of earlier pages are added. -/
theorem getElem?_addDocuments {front rest : List (Page Float)} {position : Nat}
    (there : position < rest.length) :
    ((front ++ rest).foldr (addDocument total) #[])[position]? =
      (rest.foldr (addDocument total) #[])[position]? := by
  induction front with
  | nil => rfl
  | cons page front ih =>
      have before : position ≠ ((front ++ rest).foldr (addDocument total) #[]).size := by
        rw [size_addDocuments, List.length_append]
        omega
      rw [List.cons_append, List.foldr_cons, addDocument, Array.getElem?_push, if_neg before, ih]

theorem size_documents (pages : Array (Page Float)) : (documents pages).size = pages.size := by
  rw [documents, ← Array.foldr_toList, size_addDocuments, Array.length_toList]

/-- The first documents are those of the last pages. -/
theorem getElem?_documents_drop (number : Nat) {position : Nat}
    (inside : position < pages.size - number) :
    (documents pages)[position]? =
      ((pages.toList.drop number).foldr (addDocument pages.size) #[])[position]? := by
  have whole : documents pages = (pages.toList.take number ++ pages.toList.drop number).foldr
      (addDocument pages.size) #[] := by
    rw [List.take_append_drop, Array.foldr_toList, documents]
  rw [whole, getElem?_addDocuments]
  rwa [List.length_drop, Array.length_toList]

theorem getElem?_documents (there : pages[number]? = some page)
    (behind : ∀ child ∈ page.childPages, number < child ∧ child < pages.size) :
    (documents pages)[pages.size - 1 - number]? =
      some (page.toValue fun child => (documents pages)[pages.size - 1 - child]?) := by
  obtain ⟨before, rfl⟩ := Array.getElem?_eq_some_iff.mp there
  have drop : pages.toList.drop number = pages[number] :: pages.toList.drop (number + 1) :=
    List.drop_eq_getElem_cons (by simpa using before)
  have last : pages.size - 1 - number = (pages.toList.drop (number + 1)).length := by
    rw [List.length_drop, Array.length_toList]
    omega
  rw [getElem?_documents_drop number (by omega), drop, List.foldr_cons, addDocument,
    Array.getElem?_push, size_addDocuments, if_pos last, Option.some_inj, Page.toValue, Page.toValue]
  congr 1
  apply List.filterMap_congr
  intro child member
  obtain ⟨above, below⟩ := behind child (Array.mem_toList_iff.mp member)
  exact (getElem?_documents_drop (number + 1) (by omega)).symm

end Reading

theorem Shown.lt_size {pages : Array (Page α)} {branch : Branch α} {number : Nat}
    (shown : Shown pages branch number) : number < pages.size := by
  cases shown with
  | node behind page below => exact (Array.getElem?_eq_some_iff.mp page).1

theorem Shown.document {pages : Array (Page Float)} {branch : Branch Float} {number : Nat}
    (shown : Shown pages branch number) :
    (documents pages)[pages.size - 1 - number]? = some branch.nested := by
  induction shown with
  | @node segment children number first behind page below ih =>
      have numbers : (Array.range' first children.length).toList =
          (children.zipIdx first).map Prod.snd := by
        rw [Array.toList_range', List.zipIdx_map_snd]
      have after : ∀ child ∈ Array.range' first children.length,
          number < child ∧ child < pages.size := by
        intro child member
        rw [← Array.mem_toList_iff, numbers] at member
        obtain ⟨pair, listed, rfl⟩ := List.mem_map.mp member
        have behindFirst := List.le_snd_of_mem_zipIdx listed
        exact ⟨by omega, (below pair listed).lt_size⟩
      have inOrder : (children.zipIdx first).map (nested ∘ Prod.fst) = children.map nested := by
        rw [← List.map_map, List.zipIdx_map_fst]
      have read : ((children.zipIdx first).map Prod.snd).filterMap (fun child =>
          (documents pages)[pages.size - 1 - child]?) = children.map nested := by
        rw [List.filterMap_map, ← inOrder, List.filterMap_eq_map_iff_forall_eq_some]
        exact ih
      rw [getElem?_documents page after, Page.toValue, nested, numbers, read]

theorem toValue_eq_nested (tree : Branch Float) : tree.toValue = tree.nested := by
  have ready : Ready #[.blank tree.segment] [(tree, 0)] := by
    constructor <;> simp
  have document := ((writeFrom_shown ready).2 _ List.mem_cons_self).document
  rw [Nat.sub_zero, ← size_documents, ← Array.back?_eq_getElem?] at document
  rw [toValue, document]
  rfl

end Topiary.Branch
