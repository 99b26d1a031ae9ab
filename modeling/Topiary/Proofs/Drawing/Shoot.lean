import Topiary.Proofs.Drawing.Obeying
import Topiary.Proofs.Drawing.Spine

set_option autoImplicit false

/-!
# Drawing along a spine

The same commands, obeyed by a tree that grows along a spine: a closing bracket finishes
the limbs down to the parent that was saved. The current parent is the tip, and the saved
parents are limbs of the spine in the order of the way to the root, whatever brackets
were left open or closed without a partner.
-/

namespace Topiary

variable {α : Type}

/-- A tree in the making, seen along the way from its tip to its root. -/
structure Shoot (α : Type) where
  course : Course α
  spine : Spine α

namespace Shoot

def initial [Scalar α] : Shoot α :=
  ⟨Course.initial, Spine.ofSegment Segment.root⟩

def nextSegment [Add α] [Mul α] (shoot : Shoot α) (step : α) : Segment α :=
  shoot.course.nextSegment shoot.spine.tip.finished.length step

def draw [Add α] [Mul α] (shoot : Shoot α) (step : α) : Shoot α :=
  ⟨shoot.course.moveTo (shoot.nextSegment step).id step,
    shoot.spine.grow (shoot.nextSegment step)⟩

/-- Goes on to another course: the limbs down to its parent are finished. -/
def follow (shoot : Shoot α) (course : Course α) : Shoot α :=
  ⟨course, shoot.spine.settle course.parent⟩

def obey [Scalar α] (angle step : α) (shoot : Shoot α) (command : Command) :
    Except Fault (Shoot α) :=
  shoot.course.obey angle (.ok (shoot.draw step)) shoot.follow command

def tree [Scalar α] (angle step : α) (commands : List Command) : Except Fault (Branch α) :=
  (Command.obeyAll (obey angle step) initial commands).map fun shoot => shoot.spine.toBranch

theorem toBranch_follow (shoot : Shoot α) (course : Course α) :
    (shoot.follow course).spine.toBranch = shoot.spine.toBranch :=
  Spine.toBranch_settle _ _

/-! ## The invariant -/

/-- Ids that lie on a way in the given order; the same id may come several times in a row. -/
def Along : List String → List String → Prop
  | [], _ => True
  | id :: rest, path => ∃ front back, path = front ++ id :: back ∧ Along rest (id :: back)

theorem Along.cons {saved path : List String} (along : Along saved path) (id : String) :
    Along saved (id :: path) := by
  cases saved with
  | nil => trivial
  | cons first rest =>
      obtain ⟨front, back, rfl, further⟩ := along
      exact ⟨id :: front, back, rfl, further⟩

/-- What holds of every shoot that commands produce. -/
structure Sound [Scalar α] (shoot : Shoot α) : Prop where
  parent : shoot.course.parent = shoot.spine.tip.segment.id
  saved : Along shoot.course.savedParents shoot.spine.ids
  matched : shoot.course.savedParents.length = shoot.course.trail.saved.length
  named : Branch.Linked Branch.NamedAfter shoot.spine.toBranch
  top : shoot.spine.toBranch.segment = Segment.root

namespace Sound

variable [Scalar α] {angle step : α} {shoot next : Shoot α} {command : Command}

theorem initial : Sound (Shoot.initial : Shoot α) where
  parent := rfl
  saved := trivial
  matched := rfl
  named := .bare _
  top := rfl

theorem draw (sound : Sound shoot) (step : α) : Sound (shoot.draw step) where
  parent := rfl
  saved := sound.saved.cons _
  matched := sound.matched
  named := by
    refine Spine.linked_grow_iff.mpr ⟨sound.named, ?_, ?_⟩
    · exact congrArg (idOfChild · _) sound.parent
    · exact congrArg Value.text sound.parent
  top := (Spine.segment_toBranch_grow _ _).trans sound.top

theorem distinct (sound : Sound shoot) :
    (shoot.spine.toBranch.preorder.map Branch.id).Nodup := by
  rw [← Branch.traverse_eq_preorder]
  exact sound.named.distinctIds

theorem fresh (sound : Sound shoot) (step : α) :
    (shoot.nextSegment step).id ∉ shoot.spine.toBranch.preorder.map Branch.id := by
  have distinct := (sound.draw step).distinct
  rw [Shoot.draw, Spine.allIds_grow, List.nodup_append] at distinct
  exact fun member => distinct.2.2 _ member _ List.mem_cons_self rfl

theorem follow_same (sound : Sound shoot) (course : Course α)
    (sameParent : course.parent = shoot.course.parent) :
    shoot.follow course = ⟨course, shoot.spine⟩ := by
  rw [follow, sameParent, sound.parent, Spine.settle_self]

theorem follow (sound : Sound shoot) {course : Course α}
    (steered : shoot.course.steer angle command = .ok course) : Sound (shoot.follow course) := by
  cases Course.steered_of_steer steered with
  | @turned _ turtle =>
      rw [sound.follow_same ⟨⟨turtle, shoot.course.trail.saved⟩, _, _⟩ rfl]
      exact ⟨sound.parent, sound.saved, sound.matched, sound.named, sound.top⟩
  | unmatched =>
      rw [sound.follow_same shoot.course rfl]
      exact sound
  -- An opening bracket saves the tip.
  | opened =>
      rw [sound.follow_same shoot.course.openBracket rfl]
      refine ⟨sound.parent, ?_, ?_, sound.named, sound.top⟩
      · have atTip : shoot.spine.ids =
            [] ++ shoot.course.parent :: shoot.spine.under.map fun limb => limb.segment.id := by
          rw [sound.parent]
          rfl
        refine ⟨[], _, atTip, ?_⟩
        rw [List.nil_append] at atTip
        exact atTip ▸ sound.saved
      · exact congrArg Nat.succ sound.matched
  -- A closing bracket returns to a limb of the spine.
  | @closed _ _ parent _ savedTurtles savedParents =>
      have along := sound.saved
      rw [savedParents] at along
      obtain ⟨front, back, path, further⟩ := along
      have fresh : parent ∉ front := by
        have distinct := Spine.ids_nodup sound.named.distinctIds
        rw [path] at distinct
        exact fun member => (List.nodup_append.mp distinct).2.2 _ member _ List.mem_cons_self rfl
      have settled := Spine.ids_settle path fresh
      refine ⟨(List.cons.inj settled).1.symm, ?_, ?_, ?_, ?_⟩
      · exact settled ▸ further
      · have matched := sound.matched
        rw [savedParents, savedTurtles] at matched
        exact Nat.succ.inj matched
      · rw [toBranch_follow]
        exact sound.named
      · rw [toBranch_follow]
        exact sound.top

theorem obey (sound : Sound shoot) (obeyed : shoot.obey angle step command = .ok next) :
    Sound next := by
  rcases Course.obey_cases obeyed with ⟨-, drawn⟩ | ⟨-, course, steered, rfl⟩
  · cases drawn
    exact sound.draw step
  · exact sound.follow steered

theorem obey_error (sound : Sound shoot) {fault : Fault}
    (failed : shoot.obey angle step command = .error fault) : fault = .axisWithoutLength := by
  rcases Course.obey_error_cases failed with undrawn | unsteered
  · cases undrawn
  · rcases Course.steer_error unsteered with turning | ⟨-, turtles, parents⟩
    · exact turning
    · have matched := sound.matched
      rw [parents] at matched
      exact False.elim (turtles (List.length_eq_zero_iff.mp matched.symm))

theorem obeyAll (sound : Sound shoot) {commands : List Command}
    (obeyed : Command.obeyAll (Shoot.obey angle step) shoot commands = .ok next) : Sound next :=
  Command.obeyAll_keeps Sound (fun _ _ _ before first => before.obey first) commands sound obeyed

end Sound

theorem tree_error [Scalar α] {angle step : α} {commands : List Command} {fault : Fault}
    (failed : tree angle step commands = .error fault) : fault = .axisWithoutLength :=
  Command.obeyAll_error Sound (fun _ _ _ before first => before.obey first)
    (fun _ _ _ before refused => before.obey_error refused) commands .initial
    (map_eq_error_iff.mp failed)

end Shoot

end Topiary
