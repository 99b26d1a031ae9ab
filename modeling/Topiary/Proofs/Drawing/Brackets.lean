import Mathlib.Data.List.Infix
import Topiary.Proofs.Drawing.Nesting

set_option autoImplicit false

/-!
# Brackets isolate

Whatever is drawn between two brackets that match, behind them the turtle goes on as if
it had not been drawn: the course is the one in front of them. What follows is drawn at
the same places, and only its ids may tell the difference.
-/

namespace Topiary

/-- Brackets that match: none closes before it was opened, and in the end all are closed. -/
structure Balanced {τ : Type} [BEq τ] (opening closing : τ) (symbols : List τ) : Prop where
  neverBelow : ∀ front, front <+: symbols → front.count closing ≤ front.count opening
  closed : symbols.count closing = symbols.count opening

instance {τ : Type} [BEq τ] (opening closing : τ) (symbols : List τ) :
    Decidable (Balanced opening closing symbols) :=
  decidable_of_iff
    ((∀ front ∈ symbols.inits, front.count closing ≤ front.count opening) ∧
      symbols.count closing = symbols.count opening)
    ⟨fun ⟨neverBelow, closed⟩ =>
        ⟨fun front begins => neverBelow front ((List.mem_inits front symbols).mpr begins), closed⟩,
      fun balanced =>
        ⟨fun front member => balanced.neverBelow front ((List.mem_inits front symbols).mp member),
          balanced.closed⟩⟩

variable {α : Type}

/-! ## Between two brackets -/

namespace Course

/-- A course that has opened the given number of brackets since it saved another one, and has not
come back to it. -/
structure Above (base : Course α) (height : Nat) (course : Course α) : Prop where
  turtles : course.trail.saved.drop height = base.trail.turtle :: base.trail.saved
  parents : course.savedParents.drop height = base.parent :: base.savedParents

namespace Above

variable {base course next : Course α} {height : Nat} {command : Command}

theorem openBracket (base : Course α) : base.Above 0 base.openBracket :=
  ⟨rfl, rfl⟩

theorem moveTo [Scalar α] (above : base.Above height course) (id : String) (step : α) :
    base.Above height (course.moveTo id step) :=
  ⟨above.turtles, above.parents⟩

theorem steered (above : base.Above height course) (steered : Steered course command next)
    (stays : command.token = "]" → 0 < height) :
    base.Above (heightAfter height command.token) next := by
  cases steered with
  | turned notOpening notClosing =>
      rw [heightAfter_token notOpening notClosing]
      exact ⟨above.turtles, above.parents⟩
  | opened => exact ⟨above.turtles, above.parents⟩
  | unmatched saved =>
      have turtles := above.turtles
      rw [saved, List.drop_nil] at turtles
      cases turtles
  | closed savedTurtles savedParents =>
      obtain ⟨lower, rfl⟩ := Nat.exists_eq_succ_of_ne_zero (Nat.pos_iff_ne_zero.mp (stays rfl))
      obtain ⟨turtles, parents⟩ := above
      rw [savedTurtles] at turtles
      rw [savedParents] at parents
      exact ⟨turtles, parents⟩

/-- The closing bracket that meets no other leads back. -/
theorem closeBracket (above : base.Above 0 course) : course.closeBracket = .ok base := by
  obtain ⟨turtles, parents⟩ := above
  rw [List.drop_zero] at turtles parents
  simp only [Course.closeBracket, turtles, parents, Trail.restore]

end Above

end Course

theorem count_opening_append_singleton {front : List String} {token : String} {height : Nat}
    (counted : front.count "[" = height + front.count "]") (stays : token = "]" → 0 < height) :
    (front ++ [token]).count "[" =
      heightAfter height token + (front ++ [token]).count "]" := by
  unfold heightAfter
  split
  · next isOpening =>
    subst isOpening
    simp
    omega
  · next notOpening =>
    split
    · next isClosing =>
      subst isClosing
      have above := stays rfl
      simp
      omega
    · next notClosing =>
      simp [notOpening, notClosing, counted]

namespace Sketch

variable [Scalar α] {angle step : α} {sketch next : Sketch α} {tokens : List String}

theorem above_readAll {base : Course α} (start : base.Above 0 sketch.course)
    (neverBelow : ∀ front, front <+: tokens → front.count "]" ≤ front.count "[")
    (readTokens : sketch.readAll angle step tokens = .ok next) :
    ∃ height, base.Above height next.course ∧ tokens.count "[" = height + tokens.count "]" := by
  -- No bracket of the sequence closes one below it, so the stacks below it are left alone.
  refine readAll_keeps
    (fun front reached => ∃ height, base.Above height reached.course ∧
      front.count "[" = height + front.count "]")
    ⟨0, start, rfl⟩ ?_ readTokens
  rintro front token middle after begins ⟨height, above, counted⟩ read
  have stays : token = "]" → 0 < height := by
    rintro rfl
    have bound := neverBelow _ begins
    simp at bound
    omega
  refine ⟨heightAfter height token, ?_, count_opening_append_singleton counted stays⟩
  cases read with
  | drawn =>
      rw [heightAfter_of_ne (by decide) (by decide)]
      exact above.moveTo _ step
  | ignored unknown =>
      rw [heightAfter_of_unknown unknown]
      exact above
  | steered _ steered => exact above.steered steered stays

/-- Behind a bracketed part the course is the one in front of it. -/
theorem course_readAll_bracketed {inside : List String} (balanced : Balanced "[" "]" inside)
    (readTokens : sketch.readAll angle step ("[" :: inside ++ ["]"]) = .ok next) :
    next.course = sketch.course := by
  obtain ⟨inner, readInner, readClosing⟩ := exists_readAll_of_append readTokens
  have opened : (sketch.follow sketch.course.openBracket).readAll angle step inside = .ok inner :=
    readInner
  obtain ⟨height, above, counted⟩ :=
    above_readAll (.openBracket sketch.course) balanced.neverBelow opened
  have closed := balanced.closed
  obtain rfl : height = 0 := by omega
  have read := read_of_readAll_singleton readClosing
  change inner.course.closeBracket.map inner.follow = .ok next at read
  rw [above.closeBracket] at read
  cases read
  rfl

end Sketch

/-! ## Behind two brackets -/

/-- Two courses with the same turtles, which may draw from different parents. -/
structure Course.SameTrail (course other : Course α) : Prop where
  trail : course.trail = other.trail
  parents : course.savedParents.length = other.savedParents.length

theorem Course.SameTrail.steer [Scalar α] {course other : Course α} {angle : α} {command : Command}
    (same : course.SameTrail other) :
    Agree SameTrail (course.steer angle command) (other.steer angle command) := by
  obtain ⟨trail, parent, parents⟩ := course
  obtain ⟨otherTrail, otherParent, otherParents⟩ := other
  obtain ⟨sameTrail, sameLength⟩ := same
  cases sameTrail
  cases command with
  | draw => exact .ok ⟨rfl, sameLength⟩
  | turn axis opposite => exact Agree.map_self fun _ _ => ⟨rfl, sameLength⟩
  | turnBack => exact Agree.map_self fun _ _ => ⟨rfl, sameLength⟩
  | opening => exact .ok ⟨rfl, congrArg Nat.succ sameLength⟩
  | closing =>
      obtain ⟨turtle, saved⟩ := trail
      cases saved with
      | nil => exact .ok ⟨rfl, sameLength⟩
      | cons savedTurtle saved =>
          cases parents with
          | nil =>
              cases otherParents with
              | nil => exact .error
              | cons => cases sameLength
          | cons savedParent rest =>
              cases otherParents with
              | nil => cases sameLength
              | cons => exact .ok ⟨rfl, Nat.succ.inj sameLength⟩

def Segment.extent (segment : Segment α) : Vec3 α × Vec3 α × Int :=
  (segment.start, segment.finish, segment.depth)

namespace Sketch

/-- Two sketches on one trail that lie alike behind the strokes made before. -/
structure Alike (before otherBefore : List (Stroke α)) (sketch other : Sketch α) : Prop where
  course : sketch.course.SameTrail other.course
  strokes : ∃ more otherMore, sketch.strokes = before ++ more ∧
    other.strokes = otherBefore ++ otherMore ∧
    more.map (fun stroke => stroke.segment.extent) =
      otherMore.map fun stroke => stroke.segment.extent

variable [Scalar α] {angle step : α} {sketch other : Sketch α}
  {before otherBefore : List (Stroke α)}

theorem Alike.draw (alike : Alike before otherBefore sketch other) (step : α) :
    Alike before otherBefore (sketch.draw step) (other.draw step) := by
  obtain ⟨⟨sameTrail, sameLength⟩, more, otherMore, strokes, otherStrokes, extents⟩ := alike
  have moved : (sketch.draw step).course.trail = (other.draw step).course.trail := by
    simp only [Sketch.draw, Course.moveTo, sameTrail]
  have extent : (sketch.nextStroke step).segment.extent =
      (other.nextStroke step).segment.extent := by
    simp only [Sketch.nextStroke, Stroke.segment, Segment.extent, sameTrail]
  refine ⟨⟨moved, sameLength⟩, more ++ [sketch.nextStroke step],
    otherMore ++ [other.nextStroke step], ?_, ?_, ?_⟩
  · simp [Sketch.draw, strokes]
  · simp [Sketch.draw, otherStrokes]
  · simp [extents, extent]

theorem Alike.obey (alike : Alike before otherBefore sketch other) (command : Command) :
    Agree (Alike before otherBefore) (sketch.obey angle step command)
      (other.obey angle step command) := by
  by_cases draws : command = .draw
  · subst draws
    exact .ok (alike.draw step)
  · rw [Sketch.obey, Sketch.obey, Course.obey_of_ne_draw draws, Course.obey_of_ne_draw draws]
    exact alike.course.steer.map fun _ _ same => ⟨same, alike.strokes⟩

theorem Alike.readAll (alike : Alike before otherBefore sketch other) (tokens : List String) :
    Agree (Alike before otherBefore) (sketch.readAll angle step tokens)
      (other.readAll angle step tokens) := by
  rw [readAll_eq, readAll_eq]
  exact Command.obeyAll_agree (fun _ _ command alike => alike.obey command) _ alike

/-- A sketch with a bracketed part, beside the one that leaves this part out. The second run does
not fail where the first one succeeds, as a turn depends on the turtle only. -/
theorem exists_readAll_bare {front inside back : List String} {final : Sketch α}
    (balanced : Balanced "[" "]" inside)
    (readTokens :
      sketch.readAll angle step (front ++ ("[" :: inside ++ ["]"]) ++ back) = .ok final) :
    ∃ bare bracketed within bareFinal,
      sketch.readAll angle step front = .ok bare ∧
        sketch.readAll angle step (front ++ ("[" :: inside ++ ["]"])) = .ok bracketed ∧
        bracketed.course = bare.course ∧ within.length = inside.count "F" ∧
        sketch.readAll angle step (front ++ back) = .ok bareFinal ∧
        Alike (bare.strokes ++ within) bare.strokes final bareFinal := by
  obtain ⟨bracketed, readBracketed, readBack⟩ := exists_readAll_of_append readTokens
  obtain ⟨bare, readFront, readInside⟩ := exists_readAll_of_append readBracketed
  have sameCourse := course_readAll_bracketed balanced readInside
  obtain ⟨within, strokes⟩ := exists_more_strokes readInside
  have count : within.length = inside.count "F" := by
    have lengths := length_readAll readInside
    rw [strokes, List.length_append] at lengths
    simpa using lengths
  have alike : Alike (bare.strokes ++ within) bare.strokes bracketed bare := by
    rw [← strokes]
    exact ⟨⟨congrArg Course.trail sameCourse, by rw [sameCourse]⟩, [], [], by simp, by simp, rfl⟩
  obtain ⟨bareFinal, readBare, alikeFinal⟩ := (alike.readAll back).exists_right readBack
  refine ⟨bare, bracketed, within, bareFinal, readFront, readBracketed, sameCourse, count, ?_,
    alikeFinal⟩
  rw [readAll_append, readFront]
  exact readBare

end Sketch

/-! ## Without wood in the brackets -/

/-- Commands that draw nothing change the course only. -/
theorem Drawing.eq_follow_of_undrawn [Scalar α] {angle step : α} {drawing next : Drawing α}
    {commands : List Command} (undrawn : .draw ∉ commands)
    (obeyed : Command.obeyAll (Drawing.obey angle step) drawing commands = .ok next) :
    next = drawing.follow next.course := by
  induction commands generalizing drawing with
  | nil =>
      cases obeyed
      rfl
  | cons command rest ih =>
      rw [List.mem_cons, not_or] at undrawn
      rw [Command.obeyAll] at obeyed
      split at obeyed
      · next middle first =>
        rw [Drawing.obey_eq] at first
        rcases Course.obey_cases first with ⟨draws, -⟩ | ⟨-, course, -, rfl⟩
        · exact absurd draws.symm undrawn.1
        · have later : next = (drawing.follow course).follow next.course := ih undrawn.2 obeyed
          exact later
      · cases obeyed

theorem Command.draw_not_mem_ofTokens {tokens : List String} (undrawn : "F" ∉ tokens) :
    .draw ∉ ofTokens tokens := by
  intro member
  obtain ⟨token, tokenMember, known⟩ := List.mem_filterMap.mp member
  exact undrawn (ofToken?_eq_draw_iff.mp known ▸ tokenMember)

theorem Drawing.eq_of_undrawn_brackets [Scalar α] {angle step : α} {front inside : List String}
    {bare bracketed : Drawing α} (undrawn : "F" ∉ inside)
    (ran : Drawing.after angle step front = .ok bare)
    (ranOn : Drawing.after angle step (front ++ ("[" :: inside ++ ["]"])) = .ok bracketed)
    (sameCourse : bracketed.course = bare.course) : bracketed = bare := by
  have undrawnPart : "F" ∉ "[" :: inside ++ ["]"] := by simp [undrawn]
  rw [Drawing.after_append, ran] at ranOn
  rw [Drawing.eq_follow_of_undrawn (Command.draw_not_mem_ofTokens undrawnPart) ranOn, sameCourse]
  rfl

/-! ## Drawn trees -/

/-- Behind two matching brackets the turtles and the parents are those in front of them. The tree
differs from the one without the bracketed part by the segments drawn there, and otherwise in
ids only; where none are drawn there, it is the same tree. -/
theorem drawValue_bracketed {symbols others angle step : Value} {front inside back : List String}
    {radians length : Float} {tree : Branch Float} (balanced : Balanced "[" "]" inside)
    (parts : symbols.asParts =
      .ok ((front ++ ("[" :: inside ++ ["]"]) ++ back).map Value.text))
    (otherParts : others.asParts = .ok ((front ++ back).map Value.text))
    (parameters : drawingParameters angle step = .ok (radians, length))
    (drawn : drawValue symbols angle step = .ok tree) :
    (∃ bare bracketed, Drawing.after radians length front = .ok bare ∧
        Drawing.after radians length (front ++ ("[" :: inside ++ ["]"])) = .ok bracketed ∧
        bracketed.course = bare.course) ∧
      ∃ other, drawValue others angle step = .ok other ∧
        (∃ before within after,
          tree.traverse.map Branch.segment = before ++ within ++ after ∧
            before.length = front.count "F" + 1 ∧ within.length = inside.count "F" ∧
            other.traverse.map (fun branch => branch.segment.extent) =
              (before ++ after).map Segment.extent) ∧
        ("F" ∉ inside → tree = other) := by
  obtain ⟨final, readTokens, walk⟩ :=
    (drawValue_agree_readAll parts parameters).exists_right drawn
  obtain ⟨bare, bracketed, within, bareFinal, readFront, readBracketed, sameCourse, count, readBare,
    alike⟩ := Sketch.exists_readAll_bare balanced readTokens
  obtain ⟨more, otherMore, strokes, otherStrokes, extents⟩ := alike.strokes
  obtain ⟨bareDrawing, ran, bareCourse⟩ :=
    (Drawing.agree_readAll radians length _).exists_left readFront
  obtain ⟨bracketedDrawing, ranOn, bracketedCourse⟩ :=
    (Drawing.agree_readAll radians length _).exists_left readBracketed
  have sameDrawingCourse : bracketedDrawing.course = bareDrawing.course := by
    rw [bracketedCourse, sameCourse, bareCourse]
  obtain ⟨other, otherDrawn, otherWalk⟩ :=
    (drawValue_agree_readAll otherParts parameters).exists_left readBare
  refine ⟨⟨bareDrawing, bracketedDrawing, ran, ranOn, sameDrawingCourse⟩, other, otherDrawn,
    ⟨Segment.root :: bare.strokes.map Stroke.segment, within.map Stroke.segment,
      more.map Stroke.segment, ?_, ?_, ?_, ?_⟩, ?_⟩
  · simp [walk, strokes]
  · simp [Sketch.length_readAll readFront, Sketch.initial]
  · rw [List.length_map, count]
  · have otherExtents := congrArg (List.map Segment.extent) otherWalk
    rw [List.map_map] at otherExtents
    refine otherExtents.trans ?_
    simp only [otherStrokes, List.map_cons, List.map_append, List.map_map, List.cons_append]
    exact congrArg (fun later => _ :: (_ ++ later)) extents.symm
  · intro undrawn
    have same := Drawing.eq_of_undrawn_brackets undrawn ran ranOn sameDrawingCourse
    have sameTree : drawValue symbols angle step = drawValue others angle step := by
      refine drawValue_congr_after parts otherParts ?_
      intro otherRadians otherLength otherParameters
      cases parameters.symm.trans otherParameters
      rw [Drawing.after_append, ranOn, same, Drawing.after_append, ran]
    exact Except.ok.inj (drawn.symm.trans (sameTree.trans otherDrawn))

/-- A side branch with a side branch of its own, inside a bracket that is never closed. -/
theorem drawValue_bracketed_arm :
    Balanced "[" "]" ["F", "[", "F", "]"] ∧
      ∃ tree other, drawValue (.text "[F[F[F]]F") (.int 0) (.int 1) = .ok tree ∧
        drawValue (.text "[FF") (.int 0) (.int 1) = .ok other ∧
        ∃ before within after,
          tree.traverse.map Branch.segment = before ++ within ++ after ∧
            before.length = 2 ∧ within.length = 2 ∧
            other.traverse.map (fun branch => branch.segment.extent) =
              (before ++ after).map Segment.extent := by
  have balanced : Balanced "[" "]" ["F", "[", "F", "]"] := by decide
  have parts : (Value.text "[F[F[F]]F").asParts =
      .ok ((["[", "F"] ++ ("[" :: ["F", "[", "F", "]"] ++ ["]"]) ++ ["F"]).map Value.text) := rfl
  have drawn : drawValue (.text "[F[F[F]]F") (.int 0) (.int 1) = .ok _ :=
    (drawValue_eq rfl rfl).trans rfl
  have otherParts : (Value.text "[FF").asParts =
      .ok ((["[", "F"] ++ ["F"]).map Value.text) := rfl
  obtain ⟨-, other, otherDrawn, segments, -⟩ :=
    drawValue_bracketed balanced parts otherParts rfl drawn
  exact ⟨balanced, _, other, drawn, otherDrawn, segments⟩

end Topiary
