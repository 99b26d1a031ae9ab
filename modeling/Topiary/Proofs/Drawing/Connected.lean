import Mathlib.Data.List.Forall2
import Topiary.Proofs.Branch.Visible
import Topiary.Proofs.Drawing.Simulation

set_option autoImplicit false

/-!
# Drawn wood is connected

The turtle stands at the end of the segment from which it draws, and every saved turtle
at the end of the parent that was saved with it. So a segment starts where its parent
ends and lies inside no fewer brackets, and pruning does not part the two.
-/

namespace Topiary

variable {α : Type}

/-! ## Turtles and their parents -/

/-- A segment at whose end a turtle stands, inside no more brackets than the turtle. -/
structure Segment.Carries (segment : Segment α) (turtle : Turtle α) : Prop where
  finish : segment.finish = turtle.position
  depth : segment.depth ≤ turtle.depth

namespace Course

/-- Each turtle of a course stands on a segment with the id that belongs to it. -/
def Anchored (segments : List (Segment α)) (course : Course α) : Prop :=
  List.Forall₂
    (fun parent turtle => ∃ segment ∈ segments, segment.id = parent ∧ segment.Carries turtle)
    (course.parent :: course.savedParents) (course.trail.turtle :: course.trail.saved)

namespace Anchored

variable {segments : List (Segment α)} {course next : Course α} {command : Command}

theorem initial [Scalar α] : (Course.initial : Course α).Anchored [Segment.root] := by
  have depth : (-1 : Int) ≤ 0 := by decide
  exact .cons ⟨Segment.root, List.mem_singleton_self _, rfl, rfl, depth⟩ .nil

theorem steered (anchored : course.Anchored segments) (steered : Steered course command next) :
    next.Anchored segments := by
  obtain ⟨⟨segment, member, named, carries⟩, saved⟩ := List.forall₂_cons.mp anchored
  cases steered with
  | @turned _ turtle _ _ position depth =>
      have carriesTurned : segment.Carries turtle :=
        ⟨carries.finish.trans position.symm, depth ▸ carries.depth⟩
      exact .cons ⟨segment, member, named, carriesTurned⟩ saved
  | opened =>
      have deeper : segment.depth ≤ (course.trail.turtle.depth + 1 : Nat) := by
        have depth := carries.depth
        omega
      exact .cons ⟨segment, member, named, carries.finish, deeper⟩ anchored
  | unmatched => exact anchored
  | closed turtles parents =>
      rw [turtles, parents] at saved
      exact saved

theorem moveTo [Scalar α] (anchored : course.Anchored segments) (position : Nat) (step : α) :
    let segment := course.nextSegment position step
    (course.moveTo segment.id step).Anchored (segments ++ [segment]) := by
  intro segment
  -- Segments are only added, so the saved turtles stay where they stood.
  obtain ⟨-, saved⟩ := List.forall₂_cons.mp anchored
  refine .cons ⟨segment, by simp, rfl, rfl, Int.le_refl _⟩ (saved.imp ?_)
  rintro parent turtle ⟨carrier, member, carries⟩
  exact ⟨carrier, List.mem_append_left _ member, carries⟩

end Anchored

end Course

/-! ## Growing -/

namespace Branch

/-- A child that starts where its parent ends, inside no fewer brackets. -/
def GrowsFrom (parent : Segment α) (_ : Nat) (child : Segment α) : Prop :=
  child.start = parent.finish ∧ parent.depth ≤ child.depth

end Branch

namespace Shoot

variable [Scalar α] {angle step : α} {shoot next : Shoot α} {command : Command}

theorem Sound.eq_tip (sound : Sound shoot) {segment : Segment α}
    (member : segment ∈ shoot.spine.toBranch.preorder.map Branch.segment)
    (named : segment.id = shoot.course.parent) : segment = shoot.spine.tip.segment := by
  obtain ⟨branch, branchMember, rfl⟩ := List.mem_map.mp member
  have sameId : branch.id = shoot.spine.tip.finish.id := named.trans sound.parent
  have same := List.inj_on_of_nodup_map sound.distinct branchMember
    (mem_mounted shoot.spine.tip.finish shoot.spine.under) sameId
  rw [same]
  rfl

/-- What holds of the points and depths of every shoot that commands produce. -/
structure Connected (shoot : Shoot α) : Prop where
  sound : shoot.Sound
  anchored : shoot.course.Anchored (shoot.spine.toBranch.preorder.map Branch.segment)
  grown : Branch.Linked Branch.GrowsFrom shoot.spine.toBranch

namespace Connected

theorem initial : Connected (Shoot.initial : Shoot α) where
  sound := .initial
  anchored := by
    rw [Shoot.initial, Spine.toBranch_ofSegment, Branch.preorder_node]
    exact .initial
  grown := .bare _

theorem draw (connected : Connected shoot) (step : α) : Connected (shoot.draw step) where
  sound := connected.sound.draw step
  anchored := by
    rw [Shoot.draw, Spine.segments_grow]
    exact connected.anchored.moveTo _ step
  grown := by
    -- Ids are distinct, so the segment on which the turtle stands is the tip.
    obtain ⟨⟨segment, member, named, carries⟩, -⟩ := List.forall₂_cons.mp connected.anchored
    cases connected.sound.eq_tip member named
    exact Spine.linked_grow_iff.mpr ⟨connected.grown, carries.finish.symm, carries.depth⟩

theorem follow (connected : Connected shoot) {course : Course α}
    (steered : shoot.course.steer angle command = .ok course) :
    Connected (shoot.follow course) where
  sound := connected.sound.follow steered
  anchored := by
    rw [toBranch_follow]
    exact connected.anchored.steered (Course.steered_of_steer steered)
  grown := by
    rw [toBranch_follow]
    exact connected.grown

theorem obey (connected : Connected shoot) (obeyed : shoot.obey angle step command = .ok next) :
    Connected next := by
  rcases Course.obey_cases obeyed with ⟨-, drawn⟩ | ⟨-, course, steered, rfl⟩
  · cases drawn
    exact connected.draw step
  · exact connected.follow steered

end Connected

end Shoot

theorem linked_growsFrom_of_drawValue {symbols angle step : Value} {tree : Branch Float}
    (drawn : drawValue symbols angle step = .ok tree) : Branch.Linked Branch.GrowsFrom tree := by
  obtain ⟨radians, length, commands, shoot, -, -, obeyed, -, rfl⟩ := exists_shoot drawn
  exact (Command.obeyAll_keeps Shoot.Connected (fun _ _ _ before first => before.obey first)
    commands .initial obeyed).grown

/-! ## Connected trees -/

/-- A tree that starts at the origin, and whose segments start where their parents end. -/
structure Branch.EndToEnd [Scalar α] (tree : Branch α) : Prop where
  atOrigin : ∀ child ∈ tree.children, child.segment.start = Vec3.origin
  atEnd : ∀ parent ∈ tree.traverse, ∀ child ∈ parent.children,
    child.segment.start = parent.segment.finish

theorem Branch.Linked.endToEnd [Scalar α] {tree : Branch α} (grown : Linked GrowsFrom tree)
    (top : tree.segment = Segment.root) : tree.EndToEnd := by
  have atEnd : ∀ parent ∈ tree.traverse, ∀ child ∈ parent.children,
      child.segment.start = parent.segment.finish := by
    intro parent member child childMember
    obtain ⟨_, start, -⟩ := grown.exists_link member childMember
    exact start
  refine ⟨fun child childMember => ?_, atEnd⟩
  have member : tree ∈ tree.traverse := by
    rw [traverse_eq_preorder]
    exact self_mem_preorder tree
  rw [atEnd tree member child childMember, top]
  rfl

/-- The segments of a drawn tree are joined end to end, from the origin on. What pruning leaves of
it is so too, still has no id twice, and each child names the segment that lists it. -/
theorem drawValue_endToEnd {symbols angle step : Value} {tree : Branch Float}
    (drawn : drawValue symbols angle step = .ok tree) :
    tree.EndToEnd ∧ ∀ gone : IdSet,
      let filtered := tree.without gone
      filtered.EndToEnd ∧ filtered.DistinctIds ∧
        ∀ parent ∈ filtered.traverse, ∀ child ∈ parent.children,
          child.segment.parentId = .text parent.id := by
  have grown := linked_growsFrom_of_drawValue drawn
  obtain ⟨radians, length, commands, shoot, -, -, -, sound, rfl⟩ := exists_shoot drawn
  have distinct := sound.named.distinctIds
  refine ⟨grown.endToEnd sound.top, fun gone => ?_⟩
  have named : Branch.Linked Branch.NamedFrom (shoot.spine.toBranch.pruned gone) :=
    sound.named.namedFrom.pruned (fun _ _ _ _ link => link) gone
  have stillGrown : Branch.Linked Branch.GrowsFrom (shoot.spine.toBranch.pruned gone) :=
    grown.pruned (fun _ _ _ _ link => link) gone
  rw [Branch.without_eq distinct gone]
  refine ⟨stillGrown.endToEnd ?_, distinct.pruned gone, ?_⟩
  · rw [Branch.segment_pruned, sound.top]
  · intro parent member child childMember
    obtain ⟨_, _, -, parentId⟩ := named.exists_link member childMember
    exact parentId

theorem drawValue_endToEnd_fork :
    ∃ tree, drawValue (.text "F[F]F") (.int 0) (.int 1) = .ok tree ∧ tree.EndToEnd ∧
      (tree.without (IdSet.ofIds ["root-0-0"])).EndToEnd := by
  have drawn : drawValue (.text "F[F]F") (.int 0) (.int 1) = .ok _ :=
    (drawValue_eq rfl rfl).trans rfl
  obtain ⟨whole, filtered⟩ := drawValue_endToEnd drawn
  exact ⟨_, drawn, whole, (filtered _).1⟩

end Topiary
