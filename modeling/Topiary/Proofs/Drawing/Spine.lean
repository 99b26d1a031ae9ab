import Topiary.Proofs.Branch.Links

set_option autoImplicit false

/-!
# The way from the tip to the root

Wood is added at one place only: at the tip of the way from the root to the segment that
is drawn from. A spine is that way. Everything beside it is finished and stands on the
limbs of the spine in the order in which it was drawn, so that a segment added at the
tip is the last one in the order of the walk.
-/

namespace Topiary

variable {α : Type}

/-- A segment of the spine with the finished branches that grow from it. -/
structure Limb (α : Type) where
  segment : Segment α
  finished : List (Branch α)

namespace Limb

def finish (limb : Limb α) : Branch α :=
  .node limb.segment limb.finished

def receive (limb : Limb α) (branch : Branch α) : Limb α :=
  ⟨limb.segment, limb.finished ++ [branch]⟩

end Limb

/-- A branch with the limbs under it, from the one that carries it to the root. -/
def mounted (branch : Branch α) : List (Limb α) → Branch α
  | [] => branch
  | limb :: rest => mounted (limb.receive branch).finish rest

/-- The way from the tip of a growing tree to its root. -/
structure Spine (α : Type) where
  tip : Limb α
  under : List (Limb α)

namespace Spine

def ofSegment (segment : Segment α) : Spine α :=
  ⟨⟨segment, []⟩, []⟩

def grow (spine : Spine α) (segment : Segment α) : Spine α :=
  ⟨⟨segment, []⟩, spine.tip :: spine.under⟩

/-- Finishes limbs from the tip down to the limb with the given id. The root is never
finished. -/
def settleFrom (id : String) (tip : Limb α) : List (Limb α) → Spine α
  | [] => ⟨tip, []⟩
  | limb :: rest =>
    if tip.segment.id = id then ⟨tip, limb :: rest⟩
    else settleFrom id (limb.receive tip.finish) rest

def settle (spine : Spine α) (id : String) : Spine α :=
  settleFrom id spine.tip spine.under

def toBranch (spine : Spine α) : Branch α :=
  mounted spine.tip.finish spine.under

def ids (spine : Spine α) : List String :=
  (spine.tip :: spine.under).map fun limb => limb.segment.id

@[simp] theorem toBranch_ofSegment (segment : Segment α) :
    (ofSegment segment).toBranch = .node segment [] := rfl

theorem toBranch_grow (spine : Spine α) (segment : Segment α) :
    (spine.grow segment).toBranch =
      mounted (spine.tip.receive (.node segment [])).finish spine.under := rfl

end Spine

/-! ## Mounting -/

theorem segment_mounted_congr {branch other : Branch α} {under : List (Limb α)}
    (same : branch.segment = other.segment) :
    (mounted branch under).segment = (mounted other under).segment := by
  induction under generalizing branch other with
  | nil => exact same
  | cons limb rest ih => exact ih rfl

theorem mem_mounted (branch : Branch α) (under : List (Limb α)) :
    branch ∈ (mounted branch under).preorder := by
  induction under generalizing branch with
  | nil => exact Branch.self_mem_preorder branch
  | cons limb rest ih =>
      have onLimb : branch ∈ (limb.receive branch).finish.children := by
        simp [Limb.finish, Limb.receive]
      exact Branch.mem_preorder_trans (ih _)
        (Branch.mem_preorder_of_child onLimb (Branch.self_mem_preorder branch))

/-- A segment is linked to the limbs under it, and these among themselves and to what stands on
them. -/
def Seated (link : Segment α → Nat → Segment α → Prop) (segment : Segment α) :
    List (Limb α) → Prop
  | [] => True
  | limb :: rest =>
    Branch.Linked link limb.finish ∧ link limb.segment limb.finished.length segment ∧
      Seated link limb.segment rest

/-- Mounting a branch keeps its links, and adds some that depend only on its top segment. -/
theorem linked_mounted_iff {link : Segment α → Nat → Segment α → Prop} {branch : Branch α}
    {under : List (Limb α)} :
    Branch.Linked link (mounted branch under) ↔
      Branch.Linked link branch ∧ Seated link branch.segment under := by
  induction under generalizing branch with
  | nil => simp [mounted, Seated]
  | cons limb rest ih =>
      rw [mounted, ih, Limb.finish, Limb.receive, Branch.linked_append_iff, Seated, Limb.finish,
        Branch.segment_node]
      tauto

/-- The segments of a mounted branch come last in the order of the walk, and what comes before
depends only on its id. -/
theorem exists_entries_before (under : List (Limb α)) (id : String) :
    ∃ before : List (Entry α), ∀ branch : Branch α, branch.id = id →
      (mounted branch under).preorder.map Entry.ofBranch =
        before ++ branch.preorder.map Entry.ofBranch := by
  induction under generalizing id with
  | nil => exact ⟨[], fun branch _ => rfl⟩
  | cons limb rest ih =>
      obtain ⟨before, order⟩ := ih limb.segment.id
      refine ⟨before ++ ⟨limb.segment, limb.finished.map Branch.id ++ [id]⟩ ::
        (limb.finished.flatMap Branch.preorder).map Entry.ofBranch, ?_⟩
      rintro branch rfl
      rw [mounted, order _ rfl]
      simp [Limb.finish, Limb.receive, Entry.ofBranch]

/-- The limbs under a branch come before it in the order of the walk. -/
theorem limbs_sublist (branch : Branch α) (under : List (Limb α)) :
    ((under.map fun limb => limb.segment.id).reverse ++ branch.preorder.map Branch.id).Sublist
      ((mounted branch under).preorder.map Branch.id) := by
  induction under generalizing branch with
  | nil => simp [mounted]
  | cons limb rest ih =>
      rw [mounted, List.map_cons, List.reverse_cons, List.append_assoc]
      refine List.Sublist.trans ?_ (ih _)
      refine List.Sublist.append_left ?_ _
      simp [Limb.finish, Limb.receive]

namespace Spine

/-! ## Growing -/

/-- With a segment added at the tip, the tip lists its id last, and the segment itself is the
last one in the order of the walk. -/
theorem entries_grow (spine : Spine α) (segment : Segment α) :
    ∃ before after : List (Entry α),
      spine.toBranch.preorder.map Entry.ofBranch =
        before ++ ⟨spine.tip.segment, spine.tip.finished.map Branch.id⟩ :: after ∧
      (spine.grow segment).toBranch.preorder.map Entry.ofBranch =
        before ++ ⟨spine.tip.segment, spine.tip.finished.map Branch.id ++ [segment.id]⟩ :: after ++
          [⟨segment, []⟩] := by
  obtain ⟨before, order⟩ := exists_entries_before spine.under spine.tip.segment.id
  refine ⟨before, (spine.tip.finished.flatMap Branch.preorder).map Entry.ofBranch, ?_, ?_⟩
  · rw [toBranch, order _ rfl]
    simp [Limb.finish, Entry.ofBranch]
  · rw [toBranch_grow, order _ rfl]
    simp [Limb.finish, Limb.receive, Entry.ofBranch]

theorem tip_mem_entries (spine : Spine α) :
    ⟨spine.tip.segment, spine.tip.finished.map Branch.id⟩ ∈
      spine.toBranch.preorder.map Entry.ofBranch :=
  List.mem_map_of_mem (mem_mounted spine.tip.finish spine.under)

/-- An entry of the grown tree is an old one, unless it is that of the tip or of the added
segment. -/
theorem entry_grow_cases {spine : Spine α} {segment : Segment α} {entry : Entry α}
    (distinct : (spine.toBranch.preorder.map Branch.id).Nodup)
    (member : entry ∈ (spine.grow segment).toBranch.preorder.map Entry.ofBranch) :
    (entry ∈ spine.toBranch.preorder.map Entry.ofBranch ∧ entry.id ≠ spine.tip.segment.id) ∨
      entry = ⟨spine.tip.segment, spine.tip.finished.map Branch.id ++ [segment.id]⟩ ∨
      entry = ⟨segment, []⟩ := by
  obtain ⟨before, after, entries, grown⟩ := spine.entries_grow segment
  rw [← Entry.map_id_ofBranch, entries, List.map_append, List.map_cons, List.nodup_middle,
    List.nodup_cons, ← List.map_append] at distinct
  have tipAlone : spine.tip.segment.id ∉ (before ++ after).map Entry.id := distinct.1
  have different : ∀ other ∈ before ++ after, other.id ≠ spine.tip.segment.id := by
    intro other otherMember same
    exact tipAlone (same ▸ List.mem_map_of_mem otherMember)
  rw [grown] at member
  rw [entries]
  simp only [List.append_assoc, List.cons_append, List.mem_append, List.mem_cons,
    List.not_mem_nil, or_false] at member ⊢
  rcases member with earlier | atTip | later | added
  · exact .inl ⟨.inl earlier, different entry (List.mem_append_left _ earlier)⟩
  · exact .inr (.inl atTip)
  · exact .inl ⟨.inr (.inr later), different entry (List.mem_append_right _ later)⟩
  · exact .inr (.inr added)

theorem segments_grow (spine : Spine α) (segment : Segment α) :
    (spine.grow segment).toBranch.preorder.map Branch.segment =
      spine.toBranch.preorder.map Branch.segment ++ [segment] := by
  obtain ⟨before, after, entries, grown⟩ := spine.entries_grow segment
  rw [← Entry.map_segment_ofBranch, grown, ← Entry.map_segment_ofBranch, entries]
  simp

theorem allIds_grow (spine : Spine α) (segment : Segment α) :
    (spine.grow segment).toBranch.preorder.map Branch.id =
      spine.toBranch.preorder.map Branch.id ++ [segment.id] := by
  have segments := congrArg (List.map Segment.id) (spine.segments_grow segment)
  rw [List.map_append, List.map_map, List.map_map] at segments
  exact segments

theorem linked_grow_iff {link : Segment α → Nat → Segment α → Prop} {spine : Spine α}
    {segment : Segment α} :
    Branch.Linked link (spine.grow segment).toBranch ↔
      Branch.Linked link spine.toBranch ∧
        link spine.tip.segment spine.tip.finished.length segment := by
  rw [toBranch_grow, toBranch, linked_mounted_iff, linked_mounted_iff, Limb.finish, Limb.receive,
    Branch.linked_append_iff, Limb.finish, Branch.segment_node, Branch.segment_node,
    Branch.segment_node]
  have leaf : Branch.Linked link (.node segment []) := .bare segment
  tauto

theorem segment_toBranch_grow (spine : Spine α) (segment : Segment α) :
    (spine.grow segment).toBranch.segment = spine.toBranch.segment := by
  rw [toBranch_grow, toBranch]
  exact segment_mounted_congr rfl

/-! ## Settling -/

/-- Settling changes where the next segment grows, not the tree. -/
theorem toBranch_settle (spine : Spine α) (id : String) :
    (spine.settle id).toBranch = spine.toBranch := by
  obtain ⟨tip, under⟩ := spine
  induction under generalizing tip with
  | nil => rfl
  | cons limb rest ih =>
      rw [settle, settleFrom]
      split
      · rfl
      · exact ih (limb.receive tip.finish)

/-- Settling for a limb leaves the limbs from there to the root. -/
theorem ids_settle {spine : Spine α} {front back : List String} {id : String}
    (path : spine.ids = front ++ id :: back) (fresh : id ∉ front) :
    (spine.settle id).ids = id :: back := by
  obtain ⟨tip, under⟩ := spine
  induction under generalizing tip front with
  | nil =>
      cases front with
      | nil => exact path
      | cons first front => simp [ids] at path
  | cons limb rest ih =>
      rw [settle, settleFrom]
      cases front with
      | nil =>
          have same : tip.segment.id = id := (List.cons.inj path).1
          rw [if_pos same]
          exact path
      | cons first front =>
          obtain ⟨same, rest⟩ := List.cons.inj path
          have different : tip.segment.id ≠ id := by
            rintro rfl
            exact fresh (same ▸ List.mem_cons_self)
          rw [if_neg different]
          exact ih (fun member => fresh (List.mem_cons_of_mem _ member)) _ rest

theorem settle_self (spine : Spine α) : spine.settle spine.tip.segment.id = spine := by
  obtain ⟨tip, under⟩ := spine
  cases under <;> simp [settle, settleFrom]

theorem ids_nodup {spine : Spine α} (distinct : spine.toBranch.DistinctIds) : spine.ids.Nodup := by
  rw [Branch.DistinctIds, Branch.traverse_eq_preorder] at distinct
  have below := distinct.sublist (limbs_sublist spine.tip.finish spine.under)
  rw [ids, ← List.nodup_reverse, List.map_cons, List.reverse_cons]
  refine below.sublist (List.Sublist.append_left ?_ _)
  simp [Limb.finish]

end Spine

/-! ## Coordinates -/

variable {β : Type}

namespace Limb

def map (f : α → β) (limb : Limb α) : Limb β :=
  ⟨limb.segment.map f, limb.finished.map (Branch.map f)⟩

theorem map_finish (f : α → β) (limb : Limb α) : limb.finish.map f = (limb.map f).finish := by
  rw [finish, Branch.map_node]
  rfl

theorem map_receive (f : α → β) (limb : Limb α) (branch : Branch α) :
    (limb.receive branch).map f = (limb.map f).receive (branch.map f) := by
  simp [map, receive]

end Limb

theorem map_mounted (f : α → β) (branch : Branch α) (under : List (Limb α)) :
    (mounted branch under).map f = mounted (branch.map f) (under.map (Limb.map f)) := by
  induction under generalizing branch with
  | nil => rfl
  | cons limb rest ih => rw [mounted, ih, Limb.map_finish, Limb.map_receive, List.map_cons, mounted]

namespace Spine

def map (f : α → β) (spine : Spine α) : Spine β :=
  ⟨spine.tip.map f, spine.under.map (Limb.map f)⟩

theorem toBranch_map (f : α → β) (spine : Spine α) :
    (spine.map f).toBranch = spine.toBranch.map f := by
  rw [toBranch, toBranch, map_mounted, Limb.map_finish]
  rfl

theorem map_settle (f : α → β) (spine : Spine α) (id : String) :
    (spine.settle id).map f = (spine.map f).settle id := by
  obtain ⟨tip, under⟩ := spine
  induction under generalizing tip with
  | nil => rfl
  | cons limb rest ih =>
      have sameId : (tip.map f).segment.id = tip.segment.id := rfl
      have further := ih (limb.receive tip.finish)
      simp only [settle, map, List.map_cons, settleFrom, sameId] at further ⊢
      split
      · rfl
      · rw [← Limb.map_finish, ← Limb.map_receive]
        exact further

end Spine

end Topiary
