import Topiary.Drawing.Course
import Topiary.Proofs.Results

set_option autoImplicit false

/-!
# Obeying commands

A run is a sequence of steps up to the first fault, so what relates two runs is proved
for one command. A command that draws nothing turns the turtle where it stands, saves
the course, or returns to the course saved last; nothing else happens to a course.
-/

namespace Topiary

namespace Command

variable {σ τ : Type}

/-- Runs of related states agree if single commands do. -/
theorem obeyAll_agree {obey : σ → Command → Except Fault σ}
    {otherObey : τ → Command → Except Fault τ}
    {related : σ → τ → Prop}
    (step : ∀ left right command, related left right →
      Agree related (obey left command) (otherObey right command))
    (commands : List Command) {left : σ} {right : τ} (start : related left right) :
    Agree related (obeyAll obey left commands) (obeyAll otherObey right commands) := by
  induction commands generalizing left right with
  | nil => exact .ok start
  | cons command rest ih =>
      have first := step left right command start
      simp only [obeyAll]
      generalize obey left command = result at first ⊢
      generalize otherObey right command = otherResult at first ⊢
      cases first with
      | ok next => exact ih next
      | error => exact .error

theorem obeyAll_keeps {obey : σ → Command → Except Fault σ} (reached : σ → Prop)
    (keeps : ∀ state command next, reached state → obey state command = .ok next → reached next)
    (commands : List Command) {state final : σ} (start : reached state)
    (obeyed : obeyAll obey state commands = .ok final) : reached final := by
  induction commands generalizing state with
  | nil =>
      cases obeyed
      exact start
  | cons command rest ih =>
      rw [obeyAll] at obeyed
      split at obeyed
      · next next first => exact ih (keeps _ _ _ start first) obeyed
      · cases obeyed

theorem obeyAll_append (obey : σ → Command → Except Fault σ) (state : σ)
    (front back : List Command) :
    obeyAll obey state (front ++ back) =
      (obeyAll obey state front).bind fun next => obeyAll obey next back := by
  induction front generalizing state with
  | nil => rfl
  | cons command rest ih =>
      rw [List.cons_append, obeyAll, obeyAll]
      cases obey state command with
      | ok next => exact ih next
      | error fault => rfl

/-- A view of the states that follows every command follows whole runs. -/
theorem obeyAll_view {obey : σ → Command → Except Fault σ}
    {otherObey : τ → Command → Except Fault τ} (view : σ → τ)
    (follows : ∀ state command next, obey state command = .ok next →
      otherObey (view state) command = .ok (view next))
    (commands : List Command) {state final : σ}
    (obeyed : obeyAll obey state commands = .ok final) :
    obeyAll otherObey (view state) commands = .ok (view final) := by
  induction commands generalizing state with
  | nil =>
      cases obeyed
      rfl
  | cons command rest ih =>
      rw [obeyAll] at obeyed
      split at obeyed
      · next next first =>
        rw [obeyAll, follows _ _ _ first]
        exact ih obeyed
      · cases obeyed

/-- The fault of a run is the fault of one of its commands, in a state that the run reaches. -/
theorem obeyAll_error {obey : σ → Command → Except Fault σ} (reached : σ → Prop)
    {expected : Fault → Prop}
    (keeps : ∀ state command next, reached state → obey state command = .ok next → reached next)
    (fails : ∀ state command fault, reached state → obey state command = .error fault →
      expected fault)
    (commands : List Command) {state : σ} {fault : Fault} (start : reached state)
    (failed : obeyAll obey state commands = .error fault) : expected fault := by
  induction commands generalizing state with
  | nil => simp [obeyAll] at failed
  | cons command rest ih =>
      simp only [obeyAll] at failed
      cases first : obey state command with
      | error cause =>
          rw [first] at failed
          cases failed
          exact fails _ _ _ start first
      | ok next =>
          rw [first] at failed
          exact ih (keeps _ _ _ start first) failed

end Command

/-! ## Steering -/

namespace Turtle

variable {α : Type} [Scalar α] {turtle : Turtle α} {axis : Axis} {angle : α}

theorem turn_stays {turned : Turtle α} (turns : turtle.turn axis angle = .ok turned) :
    turned.position = turtle.position ∧ turned.depth = turtle.depth := by
  cases axis <;>
    · simp only [turn] at turns
      obtain ⟨rotor, -, rfl⟩ := map_eq_ok_iff.mp turns
      exact ⟨rfl, rfl⟩

theorem turn_error {fault : Fault} (failed : turtle.turn axis angle = .error fault) :
    fault = .axisWithoutLength := by
  have about : ∀ v : Vec3 α, Rotor.about v.toList angle = .error fault →
      fault = .axisWithoutLength := by
    intro v refused
    by_cases short : Scalar.less (Rotor.norm v.toList) Scalar.tiny = true
    · simp only [Rotor.about, if_pos short, Except.error.injEq] at refused
      exact refused.symm
    · simp only [Rotor.about, if_neg short] at refused
      cases refused
  cases axis <;> exact about _ (map_eq_error_iff.mp failed)

end Turtle

namespace Course

variable {α : Type} [Scalar α] {angle : α} {course : Course α} {command : Command}

/-- How a command that draws nothing changes a course. -/
inductive Steered (course : Course α) : Command → Course α → Prop where
  /-- The turtle turns where it stands, or nothing happens. -/
  | turned {command : Command} {turtle : Turtle α} (notOpening : command ≠ .opening)
      (notClosing : command ≠ .closing) (position : turtle.position = course.trail.turtle.position)
      (depth : turtle.depth = course.trail.turtle.depth) :
      Steered course command { course with trail := { course.trail with turtle := turtle } }
  | opened : Steered course .opening course.openBracket
  | unmatched (saved : course.trail.saved = []) : Steered course .closing course
  | closed {turtle : Turtle α} {saved : List (Turtle α)} {parent : String} {rest : List String}
      (turtles : course.trail.saved = turtle :: saved)
      (parents : course.savedParents = parent :: rest) :
      Steered course .closing ⟨⟨turtle, saved⟩, parent, rest⟩

private theorem steered_of_turn {next : Course α} {axis : Axis} {radians : α}
    (turns : course.turn axis radians = .ok next) (notOpening : command ≠ .opening)
    (notClosing : command ≠ .closing) : Steered course command next := by
  obtain ⟨turtle, turtleTurns, rfl⟩ := map_eq_ok_iff.mp turns
  obtain ⟨position, depth⟩ := Turtle.turn_stays turtleTurns
  exact .turned notOpening notClosing position depth

theorem steered_of_steer {next : Course α} (steered : course.steer angle command = .ok next) :
    Steered course command next := by
  cases command with
  | draw =>
      cases steered
      exact .turned (by decide) (by decide) rfl rfl
  | turn axis opposite => exact steered_of_turn steered (by simp) (by simp)
  | turnBack => exact steered_of_turn steered (by decide) (by decide)
  | opening =>
      cases steered
      exact .opened
  | closing =>
      obtain ⟨⟨turtle, saved⟩, parent, savedParents⟩ := course
      cases saved with
      | nil =>
          simp only [steer, closeBracket, Except.ok.injEq] at steered
          subst steered
          exact .unmatched rfl
      | cons savedTurtle saved =>
          cases savedParents with
          | nil => simp [steer, closeBracket] at steered
          | cons savedParent rest =>
              simp only [steer, closeBracket, Trail.restore, Except.ok.injEq] at steered
              subst steered
              exact .closed rfl rfl

theorem steer_error {fault : Fault} (failed : course.steer angle command = .error fault) :
    fault = .axisWithoutLength ∨
      fault = .noSavedParent ∧ course.trail.saved ≠ [] ∧ course.savedParents = [] := by
  cases command with
  | draw => cases failed
  | turn axis opposite => exact .inl (Turtle.turn_error (map_eq_error_iff.mp failed))
  | turnBack => exact .inl (Turtle.turn_error (map_eq_error_iff.mp failed))
  | opening => cases failed
  | closing =>
      simp only [steer, closeBracket] at failed
      split at failed
      · cases failed
      · next saved =>
        split at failed
        · next none =>
          cases failed
          exact .inr ⟨rfl, by simp [saved], none⟩
        · cases failed

/-! ## Drawing or steering -/

def obey {σ : Type} (angle : α) (course : Course α) (draw : Except Fault σ)
    (follow : Course α → σ) (command : Command) : Except Fault σ :=
  match command with
  | .draw => draw
  | other => (course.steer angle other).map follow

variable {σ τ : Type} {draw : Except Fault σ} {follow : Course α → σ}

theorem obey_of_ne_draw (other : command ≠ .draw) :
    course.obey angle draw follow command = (course.steer angle command).map follow := by
  cases command with
  | draw => exact absurd rfl other
  | turn | turnBack | opening | closing => rfl

theorem obey_cases {next : σ} (obeyed : course.obey angle draw follow command = .ok next) :
    (command = .draw ∧ draw = .ok next) ∨
      (command ≠ .draw ∧
        ∃ after, course.steer angle command = .ok after ∧ follow after = next) := by
  by_cases draws : command = .draw
  · subst draws
    exact .inl ⟨rfl, obeyed⟩
  · rw [obey_of_ne_draw draws] at obeyed
    exact .inr ⟨draws, map_eq_ok_iff.mp obeyed⟩

theorem obey_error_cases {fault : Fault}
    (failed : course.obey angle draw follow command = .error fault) :
    draw = .error fault ∨ course.steer angle command = .error fault := by
  by_cases draws : command = .draw
  · subst draws
    exact .inl failed
  · rw [obey_of_ne_draw draws] at failed
    exact .inr (map_eq_error_iff.mp failed)

/-- Two states on one course obey a command alike if they draw alike. -/
theorem agree_obey {related : σ → τ → Prop} {otherDraw : Except Fault τ}
    {otherFollow : Course α → τ} (draws : Agree related draw otherDraw)
    (follows : ∀ after, course.steer angle command = .ok after →
      related (follow after) (otherFollow after)) :
    Agree related (course.obey angle draw follow command)
      (course.obey angle otherDraw otherFollow command) := by
  by_cases drawing : command = .draw
  · subst drawing
    exact draws
  · rw [obey_of_ne_draw drawing, obey_of_ne_draw drawing]
    exact Agree.map_self follows

end Course

end Topiary
