import Topiary.Proofs.Drawing.Simulation

set_option autoImplicit false

/-!
# The order of drawing is the order of the walk

Whoever follows the turtle and writes down every stroke needs no tree: the id of a
stroke tells how many strokes were made before it from the same parent. The walk of the
drawn tree gives these strokes behind the root, none of them lost, repeated or out of
order.
-/

namespace Topiary

variable {α : Type}

structure Stroke (α : Type) where
  id : String
  parent : String
  start : Vec3 α
  finish : Vec3 α
  depth : Nat

def Stroke.segment (stroke : Stroke α) : Segment α :=
  ⟨stroke.id, .text stroke.parent, stroke.start, stroke.finish, stroke.depth⟩

def strokesFrom (strokes : List (Stroke α)) (id : String) : Nat :=
  strokes.countP fun stroke => stroke.parent = id

/-- A course with the strokes that were made on it. -/
structure Sketch (α : Type) where
  course : Course α
  strokes : List (Stroke α)

namespace Sketch

def initial [Scalar α] : Sketch α :=
  ⟨Course.initial, []⟩

def nextStroke [Add α] [Mul α] (sketch : Sketch α) (step : α) : Stroke α where
  id := idOfChild sketch.course.parent (strokesFrom sketch.strokes sketch.course.parent)
  parent := sketch.course.parent
  start := sketch.course.trail.turtle.position
  finish := (sketch.course.trail.turtle.advance step).position
  depth := sketch.course.trail.turtle.depth

def draw [Add α] [Mul α] (sketch : Sketch α) (step : α) : Sketch α :=
  ⟨sketch.course.moveTo (sketch.nextStroke step).id step,
    sketch.strokes ++ [sketch.nextStroke step]⟩

def follow (sketch : Sketch α) (course : Course α) : Sketch α :=
  ⟨course, sketch.strokes⟩

def read [Scalar α] (angle step : α) (sketch : Sketch α) (token : String) :
    Except Fault (Sketch α) :=
  if token = "F" then .ok (sketch.draw step)
  else
    match Command.ofToken? token with
    | none => .ok sketch
    | some command => (sketch.course.steer angle command).map sketch.follow

def readAll [Scalar α] (angle step : α) (sketch : Sketch α) : List String → Except Fault (Sketch α)
  | [] => .ok sketch
  | token :: rest =>
    match sketch.read angle step token with
    | .ok next => readAll angle step next rest
    | .error fault => .error fault

def obey [Scalar α] (angle step : α) (sketch : Sketch α) (command : Command) :
    Except Fault (Sketch α) :=
  sketch.course.obey angle (.ok (sketch.draw step)) sketch.follow command

end Sketch

/-- The strokes of a token sequence, in the order in which they are made. -/
def strokesOf [Scalar α] (angle step : α) (tokens : List String) : Except Fault (List (Stroke α)) :=
  (Sketch.initial.readAll angle step tokens).map Sketch.strokes

/-! ## Tokens -/

namespace Command

def token : Command → String
  | .draw => "F"
  | .turn .up false => "+"
  | .turn .up true => "-"
  | .turn .left false => "&"
  | .turn .left true => "^"
  | .turn .heading false => "\\"
  | .turn .heading true => "/"
  | .turnBack => "|"
  | .opening => "["
  | .closing => "]"

private theorem token_of_symbol {symbol : Char} {command : Command}
    (read : ofSymbol? symbol = some command) : command.token.toList = [symbol] := by
  unfold ofSymbol? at read
  repeat' split at read
  all_goals
    cases read
  all_goals
    subst symbol
    rfl

theorem ofToken?_eq_some_iff {token : String} {command : Command} :
    ofToken? token = some command ↔ token = command.token := by
  constructor
  · intro read
    unfold ofToken? at read
    split at read
    · next symbol characters =>
      rw [← String.toList_inj, characters, token_of_symbol read]
    · cases read
  · rintro rfl
    cases command with
    | turn axis opposite => cases axis <;> cases opposite <;> rfl
    | draw | turnBack | opening | closing => rfl

theorem ofToken?_eq_draw_iff {token : String} : ofToken? token = some .draw ↔ token = "F" :=
  ofToken?_eq_some_iff

theorem ofTokens_cons_unknown {token : String} (unknown : ofToken? token = none)
    (rest : List String) : ofTokens (token :: rest) = ofTokens rest :=
  List.filterMap_cons_none unknown

theorem ofTokens_cons_token (command : Command) (rest : List String) :
    ofTokens (command.token :: rest) = command :: ofTokens rest :=
  List.filterMap_cons_some (ofToken?_eq_some_iff.mpr rfl)

theorem mapM_ofPart (tokens : List String) :
    (tokens.map Value.text).mapM ofPart =
      .ok (tokens.map fun token => (ofToken? token).toList) := by
  rw [List.mapM_map]
  exact List.mapM_pure

theorem ofValue_eq {symbols : Value} {tokens : List String}
    (parts : symbols.asParts = .ok (tokens.map Value.text)) :
    ofValue symbols = .ok (ofTokens tokens) := by
  cases symbols with
  | text content =>
      have characters : tokens = content.toList.map fun character => String.ofList [character] := by
        apply List.map_injective_iff.mpr fun _ _ same => Value.text.inj same
        rw [List.map_map]
        exact (Except.ok.inj parts).symm
      rw [ofValue, ofSymbols, ofTokens, characters, List.filterMap_map]
      congr 2
      funext character
      simp [ofToken?]
  | null | bool | int | real | list | dict =>
      simp only [ofValue, parts, mapM_ofPart, Except.map, ofTokens,
        List.filterMap_eq_flatMap_toList, List.flatMap]

end Command

def singles (symbols : List Char) : List String :=
  symbols.map String.singleton

theorem singleton_injective : Function.Injective String.singleton :=
  fun _ _ => String.singleton_inj.mp

theorem asParts_ofList (symbols : List Char) :
    (Value.text (String.ofList symbols)).asParts = .ok ((singles symbols).map Value.text) := by
  simp [Value.asParts, Value.parts?, singles]

theorem Command.ofTokens_singles (symbols : List Char) :
    ofTokens (singles symbols) = ofSymbols symbols := by
  have known := ofValue_eq (asParts_ofList symbols)
  rw [ofValue, String.toList_ofList] at known
  exact (Except.ok.inj known).symm

namespace Sketch

variable [Scalar α] {angle step : α} {sketch next : Sketch α}

theorem read_eq (sketch : Sketch α) (token : String) :
    sketch.read angle step token =
      match Command.ofToken? token with
      | none => .ok sketch
      | some command => sketch.obey angle step command := by
  rw [read]
  split
  · next draws =>
    rw [Command.ofToken?_eq_draw_iff.mpr draws]
    rfl
  · next silent =>
    cases known : Command.ofToken? token with
    | none => rfl
    | some command =>
        cases command with
        | draw => exact absurd (Command.ofToken?_eq_draw_iff.mp known) silent
        | turn | turnBack | opening | closing => rfl

theorem readAll_eq (sketch : Sketch α) (tokens : List String) :
    sketch.readAll angle step tokens =
      Command.obeyAll (obey angle step) sketch (Command.ofTokens tokens) := by
  induction tokens generalizing sketch with
  | nil => rfl
  | cons token rest ih =>
      rw [readAll, read_eq]
      cases known : Command.ofToken? token with
      | none =>
          rw [Command.ofTokens_cons_unknown known]
          exact ih sketch
      | some command =>
          cases Command.ofToken?_eq_some_iff.mp known
          rw [Command.ofTokens_cons_token, Command.obeyAll]
          simp only
          cases sketch.obey angle step command with
          | ok next => exact ih next
          | error fault => rfl

theorem length_readAll {tokens : List String}
    (readTokens : sketch.readAll angle step tokens = .ok next) :
    next.strokes.length = sketch.strokes.length + tokens.count "F" := by
  induction tokens generalizing sketch with
  | nil =>
      cases readTokens
      rfl
  | cons token rest ih =>
      rw [readAll] at readTokens
      split at readTokens
      · next middle first =>
        rw [ih readTokens]
        rw [read] at first
        split at first
        · next draws =>
          cases first
          simp [draw, draws]
          omega
        · next silent =>
          rw [List.count_cons_of_ne silent]
          split at first
          · cases first
            rfl
          · obtain ⟨course, -, rfl⟩ := map_eq_ok_iff.mp first
            rfl
      · cases readTokens

end Sketch

/-! ## Strokes and segments -/

theorem strokesFrom_append (strokes : List (Stroke α)) (stroke : Stroke α) (id : String) :
    strokesFrom (strokes ++ [stroke]) id =
      strokesFrom strokes id + if stroke.parent = id then 1 else 0 := by
  simp [strokesFrom, List.countP_append, List.countP_singleton]

theorem strokesFrom_eq_zero {strokes : List (Stroke α)} {id : String}
    (absent : ∀ stroke ∈ strokes, stroke.parent ≠ id) : strokesFrom strokes id = 0 := by
  rw [strokesFrom, List.countP_eq_zero]
  simpa using absent

/-- A sketch with the strokes of a shoot on the same course. -/
structure Portrays [Scalar α] (sketch : Sketch α) (shoot : Shoot α) : Prop where
  course : sketch.course = shoot.course
  segments : shoot.spine.toBranch.preorder.map Branch.segment =
    Segment.root :: sketch.strokes.map Stroke.segment
  counts : ∀ entry ∈ shoot.spine.toBranch.preorder.map Entry.ofBranch,
    entry.childIds.length = strokesFrom sketch.strokes entry.id
  parents : ∀ stroke ∈ sketch.strokes,
    stroke.parent ∈ shoot.spine.toBranch.preorder.map Branch.id
  sound : shoot.Sound

namespace Portrays

variable [Scalar α] {angle step : α} {sketch : Sketch α} {shoot : Shoot α}

theorem initial : Portrays (Sketch.initial : Sketch α) Shoot.initial where
  course := rfl
  segments := by
    rw [Shoot.initial, Spine.toBranch_ofSegment, Branch.preorder_node]
    rfl
  counts := by
    rw [Shoot.initial, Spine.toBranch_ofSegment, Branch.preorder_node]
    intro entry member
    obtain rfl : entry = Entry.ofBranch (.node Segment.root []) := by simpa using member
    rfl
  parents := fun stroke member => absurd member List.not_mem_nil
  sound := .initial

/-- The next stroke is the next segment: both count what was drawn from the parent. -/
theorem nextStroke_segment (portrays : Portrays sketch shoot) (step : α) :
    (sketch.nextStroke step).segment = shoot.nextSegment step := by
  have count := portrays.counts _ shoot.spine.tip_mem_entries
  have position : strokesFrom sketch.strokes sketch.course.parent =
      shoot.spine.tip.finished.length := by
    rw [portrays.course, portrays.sound.parent]
    exact count.symm.trans (List.length_map _)
  rw [Shoot.nextSegment, ← position, ← portrays.course]
  rfl

theorem draw (portrays : Portrays sketch shoot) (step : α) :
    Portrays (sketch.draw step) (shoot.draw step) := by
  have sameSegment := portrays.nextStroke_segment step
  have sameId : (sketch.nextStroke step).id = (shoot.nextSegment step).id :=
    congrArg Segment.id sameSegment
  have sameParent : (sketch.nextStroke step).parent = shoot.spine.tip.segment.id := by
    rw [← portrays.sound.parent, ← portrays.course]
    rfl
  have notYetDrawnFrom : strokesFrom sketch.strokes (shoot.nextSegment step).id = 0 := by
    refine strokesFrom_eq_zero fun stroke member same => ?_
    exact portrays.sound.fresh step (same ▸ portrays.parents stroke member)
  have tipId : shoot.spine.tip.segment.id ∈ shoot.spine.toBranch.preorder.map Branch.id :=
    List.mem_map_of_mem (mem_mounted shoot.spine.tip.finish shoot.spine.under)
  refine ⟨?_, ?_, ?_, ?_, portrays.sound.draw step⟩
  · rw [Sketch.draw, sameId, portrays.course]
    rfl
  · rw [Shoot.draw, Spine.segments_grow, portrays.segments, Sketch.draw, List.map_append,
      List.map_singleton, sameSegment, List.cons_append]
  -- Only the parent and the new segment count anew; nothing was drawn from a new id before.
  · intro entry member
    rw [Sketch.draw, strokesFrom_append, sameParent]
    rcases Spine.entry_grow_cases portrays.sound.distinct member with
      ⟨old, notTip⟩ | rfl | rfl
    · rw [if_neg notTip.symm]
      exact portrays.counts entry old
    · have count := portrays.counts _ shoot.spine.tip_mem_entries
      rw [Entry.id, if_pos rfl, List.length_append]
      exact congrArg (· + 1) count
    · have notTip : shoot.spine.tip.segment.id ≠ (shoot.nextSegment step).id := by
        intro same
        exact portrays.sound.fresh step (same ▸ tipId)
      rw [Entry.id, if_neg notTip, notYetDrawnFrom]
      rfl
  · intro stroke member
    rw [Shoot.draw, Spine.allIds_grow, List.mem_append]
    rcases List.mem_append.mp member with old | new
    · exact .inl (portrays.parents stroke old)
    · rw [List.mem_singleton.mp new, sameParent]
      exact .inl tipId

theorem follow (portrays : Portrays sketch shoot) (course : Course α)
    (sound : (shoot.follow course).Sound) :
    Portrays (sketch.follow course) (shoot.follow course) where
  course := rfl
  segments := by
    rw [Shoot.toBranch_follow]
    exact portrays.segments
  counts := by
    rw [Shoot.toBranch_follow]
    exact portrays.counts
  parents := by
    rw [Shoot.toBranch_follow]
    exact portrays.parents
  sound := sound

theorem obey (portrays : Portrays sketch shoot) (command : Command) :
    Agree Portrays (sketch.obey angle step command) (shoot.obey angle step command) := by
  rw [Sketch.obey, Shoot.obey, portrays.course]
  exact Course.agree_obey (.ok (portrays.draw step))
    fun course steered => portrays.follow course (portrays.sound.follow steered)

theorem obeyAll (angle step : α) (commands : List Command) :
    Agree Portrays (Command.obeyAll (Sketch.obey angle step) Sketch.initial commands)
      (Command.obeyAll (Shoot.obey angle step) Shoot.initial commands) :=
  Command.obeyAll_agree (fun _ _ command portrays => portrays.obey command) commands initial

end Portrays

/-- The walk of a drawn tree shows the root and the strokes. -/
theorem Shoot.agree_readAll [Scalar α] (angle step : α) (tokens : List String) :
    Agree
      (fun tree sketch => tree.traverse.map Branch.segment =
        Segment.root :: sketch.strokes.map Stroke.segment)
      (Shoot.tree angle step (Command.ofTokens tokens))
      (Sketch.initial.readAll angle step tokens) := by
  have runs := Portrays.obeyAll angle step (Command.ofTokens tokens)
  rw [Shoot.tree, Sketch.readAll_eq]
  generalize Command.obeyAll (Sketch.obey angle step) Sketch.initial _ = sketched at runs ⊢
  generalize Command.obeyAll (Shoot.obey angle step) Shoot.initial _ = grown at runs ⊢
  cases runs with
  | ok portrays =>
      refine .ok ?_
      rw [Branch.traverse_eq_preorder]
      exact portrays.segments
  | error => exact .error

theorem Shoot.segments_tree [Scalar α] (angle step : α) (tokens : List String) :
    (Shoot.tree angle step (Command.ofTokens tokens)).map
        (fun tree => tree.traverse.map Branch.segment) =
      (strokesOf angle step tokens).map
        (fun strokes => Segment.root :: strokes.map Stroke.segment) := by
  have agree := Shoot.agree_readAll angle step tokens
  rw [strokesOf]
  generalize Shoot.tree angle step _ = tree at agree ⊢
  generalize Sketch.initial.readAll angle step tokens = sketch at agree ⊢
  cases agree with
  | ok segments => exact congrArg Except.ok segments
  | error => rfl

theorem length_strokesOf [Scalar α] {angle step : α} {tokens : List String}
    {strokes : List (Stroke α)} (scanned : strokesOf angle step tokens = .ok strokes) :
    strokes.length = tokens.count "F" := by
  obtain ⟨sketch, readTokens, rfl⟩ := map_eq_ok_iff.mp scanned
  rw [Sketch.length_readAll readTokens]
  exact Nat.zero_add _

/-- The walk of the tree that tokens draw is the root, followed by the strokes in the order in
which the turtle makes them. Only a turn can fail: no id is ever missing where the tree is put
together. -/
theorem drawValue_walk {symbols angle step : Value} {tokens : List String} {radians length : Float}
    (parts : symbols.asParts = .ok (tokens.map Value.text))
    (parameters : drawingParameters angle step = .ok (radians, length)) :
    (drawValue symbols angle step).map (fun tree => tree.traverse.map Branch.segment) =
        (strokesOf radians length tokens).map
          (fun strokes => Segment.root :: strokes.map Stroke.segment) ∧
      (∀ tree, drawValue symbols angle step = .ok tree →
        tree.traverse.length = tokens.count "F" + 1) ∧
      ∀ fault, drawValue symbols angle step = .error fault → fault = .axisWithoutLength := by
  have walk := Shoot.segments_tree radians length tokens
  rw [drawValue_eq parameters (Command.ofValue_eq parts)]
  refine ⟨walk, ?_, ?_⟩
  · intro tree draws
    rw [draws] at walk
    obtain ⟨strokes, scanned, same⟩ := map_eq_ok_iff.mp walk.symm
    have sizes := congrArg List.length same
    rw [List.length_cons, List.length_map, List.length_map, length_strokesOf scanned] at sizes
    exact sizes.symm
  · intro fault failed
    exact Shoot.tree_error failed

/-- After a side branch and a closing bracket without a partner the trunk goes on. A token of two
letters draws nothing. -/
theorem drawValue_walk_brackets :
    (drawValue (.list (["F", "FF", "[", "F", "]", "]", "F"].map Value.text)) (.int 0) (.int 1)).map
        (fun tree => tree.traverse.map Branch.segment) =
      .ok [Segment.root,
        ⟨"root-0", .text "root", ⟨0, 0, 0⟩, ⟨0, 1, 0⟩, 0⟩,
        ⟨"root-0-0", .text "root-0", ⟨0, 1, 0⟩, ⟨0, 2, 0⟩, 1⟩,
        ⟨"root-0-1", .text "root-0", ⟨0, 1, 0⟩, ⟨0, 2, 0⟩, 0⟩] :=
  (drawValue_walk rfl rfl).1.trans rfl

end Topiary
