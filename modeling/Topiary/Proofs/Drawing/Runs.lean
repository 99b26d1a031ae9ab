import Mathlib.Data.List.Induction
import Topiary.Proofs.Drawing.Strokes

set_option autoImplicit false

/-!
# Runs over tokens

What holds of a drawing at some token depends on the tokens in front of it. An invariant
of a run is therefore a relation between the tokens read so far and what they have led
to. A drawing that obeys the tokens' commands is on the course of the sketch that reads
them.
-/

namespace Topiary

variable {α : Type} [Scalar α] {angle step : α}

def Drawing.after (angle step : α) (tokens : List String) : Except Fault (Drawing α) :=
  Command.obeyAll (Drawing.obey angle step) Drawing.initial (Command.ofTokens tokens)

theorem Drawing.after_append (front back : List String) :
    Drawing.after angle step (front ++ back) =
      (Drawing.after angle step front).bind fun drawing =>
        Command.obeyAll (Drawing.obey angle step) drawing (Command.ofTokens back) := by
  simp only [Drawing.after, Command.ofTokens, List.filterMap_append, Command.obeyAll_append]

/-! ## Sketches -/

namespace Sketch

variable {sketch next : Sketch α} {token : String} {tokens : List String}

inductive Reads (step : α) (sketch : Sketch α) : String → Sketch α → Prop where
  | drawn : Reads step sketch "F" (sketch.draw step)
  | ignored {token : String} (unknown : Command.ofToken? token = none) :
      Reads step sketch token sketch
  | steered {command : Command} {course : Course α} (undrawn : command ≠ .draw)
      (steered : Course.Steered sketch.course command course) :
      Reads step sketch command.token (sketch.follow course)

theorem reads_of_read (read : sketch.read angle step token = .ok next) :
    Reads step sketch token next := by
  unfold Sketch.read at read
  split at read
  · next draws =>
    cases read
    exact draws ▸ .drawn
  · next silent =>
    split at read
    · next unknown =>
      cases read
      exact .ignored unknown
    · next command known =>
      obtain ⟨course, steered, rfl⟩ := map_eq_ok_iff.mp read
      have undrawn : command ≠ .draw := by
        rintro rfl
        exact silent (Command.ofToken?_eq_draw_iff.mp known)
      cases Command.ofToken?_eq_some_iff.mp known
      exact .steered undrawn (Course.steered_of_steer steered)

theorem readAll_append (front back : List String) :
    sketch.readAll angle step (front ++ back) =
      (sketch.readAll angle step front).bind fun next => next.readAll angle step back := by
  simp only [readAll_eq, Command.ofTokens, List.filterMap_append, Command.obeyAll_append]

theorem exists_readAll_of_append {front back : List String}
    (readTokens : sketch.readAll angle step (front ++ back) = .ok next) :
    ∃ middle, sketch.readAll angle step front = .ok middle ∧
      middle.readAll angle step back = .ok next := by
  rw [readAll_append] at readTokens
  cases readFront : sketch.readAll angle step front with
  | error fault => simp [readFront, Except.bind] at readTokens
  | ok middle => exact ⟨middle, rfl, by simpa [readFront, Except.bind] using readTokens⟩

theorem read_of_readAll_singleton (readToken : sketch.readAll angle step [token] = .ok next) :
    sketch.read angle step token = .ok next := by
  simp only [readAll] at readToken
  split at readToken
  · next after read =>
    cases readToken
    exact read
  · cases readToken

/-- What one more token keeps, given the tokens read before it, a whole run keeps. -/
theorem readAll_keeps (holds : List String → Sketch α → Prop) (start : holds [] sketch)
    (keeps : ∀ front token middle after, front ++ [token] <+: tokens → holds front middle →
      Reads step middle token after → holds (front ++ [token]) after)
    (readTokens : sketch.readAll angle step tokens = .ok next) : holds tokens next := by
  induction tokens using List.reverseRecOn generalizing next with
  | nil =>
      cases readTokens
      exact start
  | append_singleton front token ih =>
      obtain ⟨middle, readFront, readLast⟩ := exists_readAll_of_append readTokens
      have before : holds front middle :=
        ih (fun earlier token middle after begins =>
          keeps earlier token middle after (begins.trans (List.prefix_append _ _))) readFront
      exact keeps front token middle next (List.prefix_refl _) before
        (reads_of_read (read_of_readAll_singleton readLast))

theorem exists_more_strokes (readTokens : sketch.readAll angle step tokens = .ok next) :
    ∃ more, next.strokes = sketch.strokes ++ more := by
  refine readAll_keeps (fun _ reached => ∃ more, reached.strokes = sketch.strokes ++ more)
    ⟨[], (List.append_nil _).symm⟩ ?_ readTokens
  intro front token middle after _ before read
  obtain ⟨more, strokes⟩ := before
  cases read with
  | drawn => exact ⟨more ++ [middle.nextStroke step], by simp [draw, strokes]⟩
  | ignored => exact ⟨more, strokes⟩
  | steered => exact ⟨more, strokes⟩

end Sketch

/-! ## Drawings and sketches -/

/-- Tokens that lead to the same drawing draw the same tree. -/
theorem drawValue_congr_after {symbols others angle step : Value} {tokens otherTokens : List String}
    (parts : symbols.asParts = .ok (tokens.map Value.text))
    (otherParts : others.asParts = .ok (otherTokens.map Value.text))
    (same : ∀ radians length, drawingParameters angle step = .ok (radians, length) →
      Drawing.after radians length tokens = Drawing.after radians length otherTokens) :
    drawValue symbols angle step = drawValue others angle step := by
  cases parameters : drawingParameters angle step with
  | error fault => simp only [drawValue, parameters]
  | ok numbers =>
      obtain ⟨radians, length⟩ := numbers
      have sameAfter := same radians length parameters
      unfold Drawing.after at sameAfter
      simp only [drawValue, parameters, Command.ofValue_eq parts, Command.ofValue_eq otherParts,
        Drawing.treeOfFloats, Drawing.tree, sameAfter]

/-- A tree is drawn exactly if its tokens can be read, and its walk shows the strokes. -/
theorem drawValue_agree_readAll {symbols angle step : Value} {tokens : List String}
    {radians length : Float} (parts : symbols.asParts = .ok (tokens.map Value.text))
    (parameters : drawingParameters angle step = .ok (radians, length)) :
    Agree
      (fun tree sketch => tree.traverse.map Branch.segment =
        Segment.root :: sketch.strokes.map Stroke.segment)
      (drawValue symbols angle step) (Sketch.initial.readAll radians length tokens) := by
  rw [drawValue_eq parameters (Command.ofValue_eq parts)]
  exact Shoot.agree_readAll radians length tokens

/-- A drawing and a sketch that read the same tokens are on the same course or fail alike. -/
theorem Drawing.agree_readAll (angle step : α) (tokens : List String) :
    Agree (fun drawing sketch => drawing.course = sketch.course)
      (Drawing.after angle step tokens) (Sketch.initial.readAll angle step tokens) := by
  have drawn := Depicts.obeyAll angle step (Command.ofTokens tokens)
  have sketched := Portrays.obeyAll angle step (Command.ofTokens tokens)
  rw [Drawing.after, Sketch.readAll_eq]
  generalize Command.obeyAll (Drawing.obey angle step) Drawing.initial _ = drawing at drawn ⊢
  generalize Command.obeyAll (Sketch.obey angle step) Sketch.initial _ = sketch at sketched ⊢
  generalize Command.obeyAll (Shoot.obey angle step) Shoot.initial _ = shoot at drawn sketched
  cases drawn with
  | ok depicts =>
      cases sketched with
      | ok portrays => exact .ok (depicts.course.trans portrays.course.symm)
  | error =>
      cases sketched with
      | error => exact .error

theorem Drawing.after_error {tokens : List String} {fault : Fault}
    (failed : Drawing.after angle step tokens = .error fault) : fault = .axisWithoutLength := by
  have grown := (Depicts.obeyAll angle step (Command.ofTokens tokens)).error_right failed
  exact Shoot.tree_error (map_eq_error_iff.mpr grown)

end Topiary
