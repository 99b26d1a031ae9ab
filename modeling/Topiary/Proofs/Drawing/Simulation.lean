import Topiary.Growth
import Topiary.Proofs.Drawing.Arena
import Topiary.Proofs.Drawing.Shoot

set_option autoImplicit false

/-!
# Arena and spine draw the same tree

A drawing keeps its segments in an arena and puts the tree together at the end; a shoot
is a tree at every moment. The arena holds the tree of the shoot after every command, so
that no id is ever missing in it, and in the end it gives this very tree.
-/

namespace Topiary

variable {α : Type} [Scalar α]

theorem Drawing.obey_eq (angle step : α) (drawing : Drawing α) (command : Command) :
    drawing.obey angle step command =
      drawing.course.obey angle (drawing.draw step) drawing.follow command := by
  cases command <;> rfl

/-- A drawing whose arena holds the tree of a shoot on the same course. -/
structure Depicts (drawing : Drawing α) (shoot : Shoot α) : Prop where
  course : drawing.course = shoot.course
  order : drawing.order.toList = shoot.spine.toBranch.preorder.map Branch.id
  arena : Arena.Holds drawing.arena (shoot.spine.toBranch.preorder.map Entry.ofBranch)
  sound : shoot.Sound

namespace Depicts

variable {angle step : α} {drawing : Drawing α} {shoot : Shoot α}

theorem initial : Depicts (Drawing.initial : Drawing α) Shoot.initial where
  course := rfl
  order := by
    rw [Shoot.initial, Spine.toBranch_ofSegment, Branch.preorder_node]
    rfl
  arena := by
    rw [Shoot.initial, Spine.toBranch_ofSegment, Branch.preorder_node]
    exact Arena.holds_initial
  sound := .initial

/-- The parent is in the arena, with as many children as the tip has. -/
theorem owner (depicts : Depicts drawing shoot) :
    ∃ draft, drawing.arena[drawing.course.parent]? = some draft ∧
      draft.childIds.size = shoot.spine.tip.finished.length := by
  have found := depicts.arena _ shoot.spine.tip_mem_entries
  obtain ⟨draft, atTip, isEntry⟩ := Option.map_eq_some_iff.mp found
  refine ⟨draft, ?_, ?_⟩
  · rw [depicts.course, depicts.sound.parent]
    exact atTip
  · have children := congrArg List.length (Entry.mk.inj isEntry).2
    rw [List.length_map, Array.length_toList] at children
    exact children

theorem draw (depicts : Depicts drawing shoot) (step : α) :
    Agree Depicts (drawing.draw step) (.ok (shoot.draw step)) := by
  obtain ⟨draft, found, size⟩ := depicts.owner
  have sameSegment : drawing.course.nextSegment draft.childIds.size step =
      shoot.nextSegment step := by
    rw [Shoot.nextSegment, depicts.course, size]
  rw [Drawing.draw, found]
  simp only [sameSegment]
  refine .ok ⟨?_, ?_, ?_, depicts.sound.draw step⟩
  · rw [depicts.course]
    rfl
  · rw [Array.toList_push, depicts.order, Shoot.draw, Spine.allIds_grow]
  · rw [depicts.course, depicts.sound.parent]
    refine depicts.arena.add shoot.spine.tip_mem_entries ?_
      fun entry member => Spine.entry_grow_cases depicts.sound.distinct member
    rw [Entry.map_id_ofBranch]
    exact depicts.sound.fresh step

theorem follow (depicts : Depicts drawing shoot) (course : Course α)
    (sound : (shoot.follow course).Sound) :
    Depicts (drawing.follow course) (shoot.follow course) where
  course := rfl
  order := by
    rw [Shoot.toBranch_follow]
    exact depicts.order
  arena := by
    rw [Shoot.toBranch_follow]
    exact depicts.arena
  sound := sound

theorem obey (depicts : Depicts drawing shoot) (command : Command) :
    Agree Depicts (drawing.obey angle step command) (shoot.obey angle step command) := by
  rw [Drawing.obey_eq, Shoot.obey, depicts.course]
  exact Course.agree_obey (depicts.draw step)
    fun course steered => depicts.follow course (depicts.sound.follow steered)

theorem obeyAll (angle step : α) (commands : List Command) :
    Agree Depicts (Command.obeyAll (Drawing.obey angle step) Drawing.initial commands)
      (Command.obeyAll (Shoot.obey angle step) Shoot.initial commands) :=
  Command.obeyAll_agree (fun _ _ command depicts => depicts.obey command) commands initial

theorem freeze (depicts : Depicts drawing shoot) :
    drawing.arena.freeze drawing.order.toList = .ok shoot.spine.toBranch := by
  rw [depicts.order]
  refine Arena.freeze_eq depicts.arena depicts.sound.named.distinctIds ?_
  rw [Branch.id, depicts.sound.top]
  rfl

end Depicts

/-- The tree that is put together from an arena is the tree that grows along a spine. -/
theorem Drawing.tree_eq (angle step : α) (commands : List Command) :
    Drawing.tree angle step commands = Shoot.tree angle step commands := by
  have runs := Depicts.obeyAll angle step commands
  rw [Drawing.tree, Shoot.tree]
  generalize Command.obeyAll (Drawing.obey angle step) Drawing.initial commands = drawn at runs ⊢
  generalize Command.obeyAll (Shoot.obey angle step) Shoot.initial commands = grown at runs ⊢
  cases runs with
  | ok depicts => exact depicts.freeze
  | error => rfl

/-! ## Values -/

theorem drawValue_eq {symbols angle step : Value} {radians length : Float}
    {commands : List Command} (parameters : drawingParameters angle step = .ok (radians, length))
    (given : Command.ofValue symbols = .ok commands) :
    drawValue symbols angle step = Shoot.tree radians length commands := by
  simp only [drawValue, parameters, given, Drawing.treeOfFloats, Drawing.tree_eq]

theorem exists_shoot {symbols angle step : Value} {tree : Branch Float}
    (drawn : drawValue symbols angle step = .ok tree) :
    ∃ radians length commands shoot, drawingParameters angle step = .ok (radians, length) ∧
      Command.ofValue symbols = .ok commands ∧
      Command.obeyAll (Shoot.obey radians length) Shoot.initial commands = .ok shoot ∧
      shoot.Sound ∧ shoot.spine.toBranch = tree := by
  cases parameters : drawingParameters angle step with
  | error fault => simp [drawValue, parameters] at drawn
  | ok numbers =>
      obtain ⟨radians, length⟩ := numbers
      cases given : Command.ofValue symbols with
      | error fault => simp [drawValue, parameters, given] at drawn
      | ok commands =>
          rw [drawValue_eq parameters given, Shoot.tree] at drawn
          obtain ⟨shoot, obeyed, same⟩ := map_eq_ok_iff.mp drawn
          exact ⟨radians, length, commands, shoot, rfl, rfl, obeyed,
            Shoot.Sound.initial.obeyAll obeyed, same⟩

end Topiary
