import Topiary.Proofs.Branch.Paths
import Topiary.Proofs.Branch.Visible

set_option autoImplicit false

/-!
# The rounds of a walk

A walk keeps a stack with siblings from several levels of the tree. Whatever stands on
it, each round visits the first branch of the order that the stack still holds, so a walk
ends after one round for each branch of its order. In the order of all branches the ways
from the top come in lexicographic order, and so each of them once.
-/

namespace Topiary.Branch

variable {α : Type}

/-! ## Rounds -/

/-- A walk under way: the branches on its stack, the next one last, and those it has visited. -/
structure Walk (α : Type) where
  stack : List (Branch α)
  visited : List (Branch α)

namespace Walk

variable {onward order : Branch α → List (Branch α)}

/-- Takes the next branch from the stack and puts on it those to which the branch leads, the first
of them last. With an empty stack the walk is over. -/
def round (onward : Branch α → List (Branch α)) (walk : Walk α) : Option (Walk α) :=
  walk.stack.getLast?.map fun branch =>
    ⟨walk.stack.dropLast ++ (onward branch).reverse, walk.visited ++ [branch]⟩

def after (onward : Branch α → List (Branch α)) : Nat → Walk α → Option (Walk α)
  | 0, walk => some walk
  | count + 1, walk => (walk.round onward).bind (after onward count)

theorem round_reverse (branch : Branch α) (pending visited : List (Branch α)) :
    round onward ⟨(branch :: pending).reverse, visited⟩ =
      some ⟨(onward branch ++ pending).reverse, visited ++ [branch]⟩ := by
  simp [round]

/-- A walk is over after as many rounds as its order has branches, and has visited them in this
order. -/
theorem after_eq (unfolds : ∀ branch, order branch = branch :: (onward branch).flatMap order)
    (pending visited : List (Branch α)) :
    after onward (pending.flatMap order).length ⟨pending.reverse, visited⟩ =
      some ⟨[], visited ++ pending.flatMap order⟩ := by
  -- Each round takes one branch off the order of the stack, whichever level it stands on.
  generalize rounds : (pending.flatMap order).length = count
  induction count generalizing pending visited with
  | zero =>
      cases pending with
      | nil => simp [after]
      | cons branch rest => simp [unfolds branch] at rounds
  | succ count ih =>
      cases pending with
      | nil => simp at rounds
      | cons branch rest =>
          have visits : (branch :: rest).flatMap order =
              branch :: (onward branch ++ rest).flatMap order := by
            rw [List.flatMap_cons, unfolds, List.cons_append, List.flatMap_append]
          rw [visits, List.length_cons, Nat.add_right_cancel_iff] at rounds
          rw [after, round_reverse, Option.bind_some, ih _ _ rounds, visits]
          simp

end Walk

theorem preorder_unfolds (branch : Branch α) :
    branch.preorder = branch :: branch.children.flatMap preorder := by
  cases branch
  exact preorder_node _ _

theorem shown_unfolds (hidden : IdSet) (branch : Branch α) :
    branch.shown hidden =
      branch :: (unhidden hidden branch.children).flatMap (shown hidden) := by
  cases branch
  exact shown_node _ _

theorem length_preorderAll (branches : List (Branch α)) :
    (preorderAll branches).length = sizeAll branches := by
  induction branches using pending_induction with
  | nil => simp [preorderAll]
  | visit branch rest ih =>
      rw [preorderAll_cons, List.length_cons, ih, sizeAll_append, sizeAll_cons, size_eq]
      omega

/-! ## Ways -/

mutual

/-- The ways from the top of a tree, in the order of the walk. -/
def ways : Branch α → List (List Nat)
  | .node _ children => [] :: waysFrom 0 children

/-- The ways that begin with one of several children, of which the first has the given position. -/
def waysFrom (position : Nat) : List (Branch α) → List (List Nat)
  | [] => []
  | branch :: rest => branch.ways.map (position :: ·) ++ waysFrom (position + 1) rest

end

theorem waysFrom_eq_flatMap (position : Nat) (branches : List (Branch α)) :
    waysFrom position branches =
      (branches.zipIdx position).flatMap fun child => child.1.ways.map (child.2 :: ·) := by
  induction branches generalizing position with
  | nil => simp [waysFrom]
  | cons branch rest ih => simp [waysFrom, ih]

theorem ways_node (segment : Segment α) (children : List (Branch α)) :
    (node segment children).ways =
      [] :: children.zipIdx.flatMap fun child => child.1.ways.map (child.2 :: ·) := by
  rw [ways, waysFrom_eq_flatMap]

theorem map_descend_ways (tree : Branch α) :
    tree.ways.map tree.descend? = tree.preorder.map some := by
  induction tree with
  | node segment children ih =>
      have below : ∀ child ∈ children.zipIdx,
          (child.1.ways.map (child.2 :: ·)).map (node segment children).descend? =
            child.1.preorder.map some := by
        intro child member
        have listed : children[child.2]? = some child.1 := List.mem_zipIdx_iff_getElem?.mp member
        rw [List.map_map, ← ih child.1 (List.mem_of_getElem? listed)]
        apply List.map_congr_left
        intro way _
        simp [descend?, listed]
      have inOrder : children.zipIdx.flatMap (fun child => child.1.preorder.map some) =
          children.flatMap fun child => child.preorder.map some := by
        have firsts : children.zipIdx.map Prod.fst = children := List.zipIdx_map_fst 0 children
        conv_rhs => rw [← firsts, List.flatMap_map]
      rw [ways_node, preorder_node, List.map_cons, List.map_cons, List.map_flatMap,
        List.flatMap_congr below, inOrder, List.map_flatMap]
      rfl

theorem mem_ways_iff {tree : Branch α} {way : List Nat} :
    way ∈ tree.ways ↔ (tree.descend? way).isSome := by
  induction tree generalizing way with
  | node segment children ih =>
      cases way with
      | nil => simp [ways_node, descend?]
      | cons position further =>
          rw [ways_node, descend?, children_node]
          simp only [List.mem_cons, reduceCtorEq, false_or, List.mem_flatMap, List.mem_map]
          constructor
          · rintro ⟨⟨child, index⟩, member, way, wayMember, same⟩
            obtain ⟨rfl, rfl⟩ := List.cons.inj same
            have listed : children[index]? = some child := List.mem_zipIdx_iff_getElem?.mp member
            rw [listed, Option.bind_some]
            exact (ih child (List.mem_of_getElem? listed)).mp wayMember
          · intro leads
            obtain ⟨branch, reached⟩ := Option.isSome_iff_exists.mp leads
            obtain ⟨child, listed, rest⟩ := Option.bind_eq_some_iff.mp reached
            have onward := (ih child (List.mem_of_getElem? listed)).mpr
              (Option.isSome_iff_exists.mpr ⟨branch, rest⟩)
            exact ⟨(child, position), List.mem_zipIdx_iff_getElem?.mpr listed, further, onward, rfl⟩

/-- A way comes before those that go on from it, and before those that turn to a later child. -/
theorem pairwise_ways (tree : Branch α) : tree.ways.Pairwise (· < ·) := by
  induction tree with
  | node segment children ih =>
      rw [ways_node, List.pairwise_cons, List.pairwise_flatMap]
      refine ⟨?_, ?_, ?_⟩
      · intro way member
        obtain ⟨child, -, below⟩ := List.mem_flatMap.mp member
        obtain ⟨rest, -, rfl⟩ := List.mem_map.mp below
        exact List.nil_lt_cons _ _
      · intro child member
        have listed : children[child.2]? = some child.1 := List.mem_zipIdx_iff_getElem?.mp member
        rw [List.pairwise_map]
        exact (ih child.1 (List.mem_of_getElem? listed)).imp fun before =>
          List.cons_lt_cons_self.mpr before
      · -- Ways through two children are told apart by the positions of the children.
        have positions : (children.zipIdx.map Prod.snd).Pairwise (· < ·) := by
          rw [List.zipIdx_map_snd]
          exact List.pairwise_lt_range'
        rw [List.pairwise_map] at positions
        refine positions.imp ?_
        intro child later before way member laterWay laterMember
        obtain ⟨rest, -, rfl⟩ := List.mem_map.mp member
        obtain ⟨laterRest, -, rfl⟩ := List.mem_map.mp laterMember
        exact List.cons_lt_cons_iff.mpr (.inl before)

/-! ## Walks -/

/-- The walk over all branches ends after as many rounds as the tree has branches. It visits each
branch and then the orders of its children, so that every way from the top is gone once, in
lexicographic order. The walk that passes hidden branches by ends too, and visits each branch and
then the orders of its unhidden children. -/
theorem walks_in_order (tree : Branch α) :
    (Walk.after children tree.size ⟨[tree], []⟩ = some ⟨[], tree.traverse⟩ ∧
      tree.traverse = tree.preorder ∧
      (∀ branch : Branch α, branch.preorder = branch :: branch.children.flatMap preorder) ∧
      tree.ways.map tree.descend? = tree.traverse.map some ∧ tree.ways.Pairwise (· < ·) ∧
      ∀ way, way ∈ tree.ways ↔ (tree.descend? way).isSome) ∧
    ∀ hidden : IdSet,
      Walk.after (fun branch => unhidden hidden branch.children) (tree.visible hidden).length
          ⟨(unhidden hidden tree.children).reverse, []⟩ = some ⟨[], tree.visible hidden⟩ ∧
        tree.visible hidden = (unhidden hidden tree.children).flatMap (shown hidden) ∧
        ∀ branch : Branch α, branch.shown hidden =
          branch :: (unhidden hidden branch.children).flatMap (shown hidden) := by
  constructor
  · have walked := Walk.after_eq preorder_unfolds [tree] []
    rw [← preorderAll_eq_flatMap, length_preorderAll, preorderAll_single] at walked
    rw [traverse_eq_preorder]
    refine ⟨?_, rfl, preorder_unfolds, map_descend_ways tree, pairwise_ways tree,
      fun way => mem_ways_iff⟩
    simpa using walked
  · intro hidden
    have order : tree.visible hidden =
        (unhidden hidden tree.children).flatMap (shown hidden) := by
      rw [visible_eq_shownAll, shownAll_eq_flatMap]
    have walked := Walk.after_eq (shown_unfolds hidden) (unhidden hidden tree.children) []
    rw [← order, List.nil_append] at walked
    exact ⟨walked, order, shown_unfolds hidden⟩

example : fork.ways = [[], [0], [0, 0], [0, 0, 0], [0, 1], [1]] := by decide

end Topiary.Branch
