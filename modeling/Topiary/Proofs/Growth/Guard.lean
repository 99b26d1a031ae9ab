import Mathlib.Data.List.Count
import Topiary.Proofs.Drawing.Strokes
import Topiary.Proofs.Grammar.Tally

set_option autoImplicit false

/-!
# The limit of growth

Before a text is written its length is counted, and a length beyond the limit is refused.
Counting and writing agree in every generation, so the refusal is right about the final
text. A refusal has to name the numbers it is about, and those with too many digits
cannot be named: it then fails for this reason.
-/

namespace Topiary

/-! ## Counting without writing -/

namespace Grammar

variable (start : String) (rules : Rules)

theorem lengthAfter_ofTexts (count : Nat) :
    (ofTexts start rules).lengthAfter count =
      .ok (.int (Topiary.symbolsAfter start rules count).length) := by
  rw [lengthAfter, (tallyAfter_tells start rules count).total]

theorem expansionLength_ofTexts (iterations : Value) :
    (ofTexts start rules).expansionLength iterations =
      ((ofTexts start rules).expansion iterations).map fun symbols => .int symbols.length := by
  rw [expansionLength, expansion]
  cases generations iterations with
  | error fault => rfl
  | ok count => exact lengthAfter_ofTexts start rules count

end Grammar

/-! ## Refusals -/

theorem isWritable_iff {number : Nat} : isWritable number = true ↔ number < 10 ^ digitLimit := by
  rw [isWritable, decide_eq_true_eq]
  exact Nat.length_repr_le_iff (by decide)

theorem exceeds?_int (number limit : Int) :
    (Value.int number).exceeds? (.int limit) = some (decide (limit < number)) := by
  have order : (Value.int number).order? (.int limit) = some (some (compare number limit)) := by
    rw [Value.order?]
    · rfl
    all_goals simp
  rw [Value.exceeds?, order, Option.map_some, Option.some_inj]
  apply Bool.eq_iff_iff.mpr
  rw [beq_iff_eq, Option.some_inj, decide_eq_true_eq, Std.compare_eq_gt]

/-- Whether the numbers that a refusal names can all be written out. -/
def Nameable (size count : Nat) (limit : Int) : Prop :=
  size < 10 ^ digitLimit ∧ count < 10 ^ digitLimit ∧ limit.natAbs < 10 ^ digitLimit

theorem nameable_iff {size count : Nat} {limit : Int} :
    ((Value.int size).isWritable && isWritable count && (Value.int limit).isWritable) = true ↔
      Nameable size count limit := by
  rw [Bool.and_eq_true, Bool.and_eq_true, Value.isWritable, isWritable_iff, isWritable_iff,
    Value.isWritable, isWritable_iff, and_assoc, Nameable, Int.natAbs_natCast]

theorem checkLength_cases (size count : Nat) (limit : Int) :
    (size ≤ limit ∧ Recipe.checkLength (.int size) count (.int limit) = .ok ()) ∨
      (limit < size ∧ Nameable size count limit ∧
        Recipe.checkLength (.int size) count (.int limit) =
          .error (.growthLimit (.int size) count (.int limit))) ∨
      (limit < size ∧ ¬ Nameable size count limit ∧
        Recipe.checkLength (.int size) count (.int limit) = .error .tooManyDigits) := by
  rw [Recipe.checkLength, exceeds?_int]
  by_cases exceeds : limit < size
  · rw [decide_eq_true exceeds]
    by_cases nameable : Nameable size count limit
    · rw [if_pos (nameable_iff.mpr nameable)]
      exact .inr (.inl ⟨exceeds, nameable, rfl⟩)
    · rw [if_neg (mt nameable_iff.mp nameable)]
      exact .inr (.inr ⟨exceeds, nameable, rfl⟩)
  · rw [decide_eq_false exceeds]
    exact .inl ⟨Int.not_lt.mp exceeds, rfl⟩

/-! ## Faults of a drawing -/

/-- The faults of a drawing: a parameter is no finite number, or a turn has no axis. -/
inductive Fault.OfDrawing : Fault → Prop where
  | notReal (name : String) (given : Value) : OfDrawing (.notReal name given)
  | notFinite (name : String) (number : Float) : OfDrawing (.notFinite name number)
  | beyondRange : OfDrawing .beyondRange
  | axisWithoutLength : OfDrawing .axisWithoutLength

theorem finiteParameter_error {name : String} {value : Value} {fault : Fault}
    (failed : finiteParameter name value = .error fault) : fault.OfDrawing := by
  rw [finiteParameter] at failed
  split at failed
  · split at failed
    · cases failed
    · cases failed
      exact .notFinite _ _
  · cases failed
    exact .notReal _ _
  · cases failed
    exact .beyondRange

theorem drawingParameters_error {angle step : Value} {fault : Fault}
    (failed : drawingParameters angle step = .error fault) : fault.OfDrawing := by
  rw [drawingParameters] at failed
  split at failed
  · next cause refused =>
    cases failed
    exact finiteParameter_error refused
  · exact finiteParameter_error (map_eq_error_iff.mp failed)

theorem drawTree_eq (commands : List Command) {angle step : Value} {radians length : Float}
    (parameters : drawingParameters angle step = .ok (radians, length)) :
    drawTree commands angle step = Shoot.tree radians length commands := by
  simp only [drawTree, parameters, Drawing.treeOfFloats, Drawing.tree_eq]

theorem drawingParameters_real {angle step : Float} (angleFinite : angle.isFinite = true)
    (stepFinite : step.isFinite = true) :
    drawingParameters (.real angle) (.real step) = .ok (angle * Scalar.degree, step) := by
  have checkedAngle : finiteParameter "angle_deg" (.real angle) = .ok angle := if_pos angleFinite
  have checkedStep : finiteParameter "step" (.real step) = .ok step := if_pos stepFinite
  rw [drawingParameters, checkedAngle, checkedStep]
  rfl

theorem drawTree_real (commands : List Command) {angle step : Float}
    (angleFinite : angle.isFinite = true) (stepFinite : step.isFinite = true) :
    (∃ tree, drawTree commands (.real angle) (.real step) = .ok tree) ∨
      drawTree commands (.real angle) (.real step) = .error .axisWithoutLength := by
  rw [drawTree_eq commands (drawingParameters_real angleFinite stepFinite)]
  cases drawn : Shoot.tree (angle * Scalar.degree) step commands with
  | ok tree => exact .inl ⟨tree, rfl⟩
  | error fault => exact .inr (by rw [Shoot.tree_error drawn])

theorem drawTree_error {commands : List Command} {angle step : Value} {fault : Fault}
    (failed : drawTree commands angle step = .error fault) : fault.OfDrawing := by
  cases parameters : drawingParameters angle step with
  | error cause =>
      simp only [drawTree, parameters, Except.error.injEq] at failed
      exact failed ▸ drawingParameters_error parameters
  | ok numbers =>
      rw [drawTree_eq commands parameters] at failed
      exact Shoot.tree_error failed ▸ .axisWithoutLength

/-! ## What symbols draw -/

/-- Behind the root, the walk of a drawn tree shows one segment for each `F`. -/
theorem exists_segments_of_drawTree {symbols : List Char} {angle step : Value}
    {tree : Branch Float}
    (drawn : drawTree (Command.ofSymbols symbols) angle step = .ok tree) :
    ∃ segments : List (Segment Float),
      tree.traverse.map Branch.segment = Segment.root :: segments ∧
        segments.length = symbols.count 'F' := by
  cases parameters : drawingParameters angle step with
  | error cause => simp [drawTree, parameters] at drawn
  | ok numbers =>
      rw [drawTree_eq _ parameters, ← Command.ofTokens_singles] at drawn
      have walk := Shoot.segments_tree numbers.1 numbers.2 (singles symbols)
      rw [drawn] at walk
      obtain ⟨strokes, scanned, same⟩ := map_eq_ok_iff.mp walk.symm
      refine ⟨strokes.map Stroke.segment, same.symm, ?_⟩
      rw [List.length_map, length_strokesOf scanned]
      exact List.count_map_of_injective symbols _ singleton_injective 'F'

/-! ## Growth of texts -/

namespace Recipe

def boundOf (limit : Option Int) : Int :=
  limit.getD Settings.standard.maxSymbols

theorem getD_standardLimit (limit : Option Int) :
    (limit.map Value.int).getD standardLimit = .int (boundOf limit) := by
  cases limit <;> rfl

variable {iterations : Value} {count : Nat} (valid : generations iterations = .ok count)
  (start : String) (rules : Rules) (angle step : Value) (limit : Option Int)

include valid

theorem grow_ofTexts (given : Option Value) :
    (Recipe.mk (.ofTexts start rules) iterations angle step).grow given =
      match checkLength (.int (symbolsAfter start rules count).length) count
        (given.getD standardLimit) with
      | .error fault => .error fault
      | .ok _ => drawTree (Command.ofSymbols (symbolsAfter start rules count)) angle step := by
  rw [grow, valid]
  cases checked : checkLength (.int (symbolsAfter start rules count).length) count
      (given.getD standardLimit) with
  | error fault => simp only [Grammar.lengthAfter_ofTexts, checked]
  | ok passed => simp only [Grammar.lengthAfter_ofTexts, Grammar.symbolsAfter, checked]

/-- A text within the limit is drawn; a longer one is refused with its length, or because one of
the numbers of the refusal cannot be written out. -/
theorem grow_ofTexts_cases :
    let size := (symbolsAfter start rules count).length
    let result := (Recipe.mk (.ofTexts start rules) iterations angle step).grow
      (limit.map .int)
    (size ≤ boundOf limit ∧
        result = drawTree (Command.ofSymbols (symbolsAfter start rules count)) angle step) ∨
      (boundOf limit < size ∧ Nameable size count (boundOf limit) ∧
        result = .error (.growthLimit (.int size) count (.int (boundOf limit)))) ∨
      (boundOf limit < size ∧ ¬ Nameable size count (boundOf limit) ∧
        result = .error .tooManyDigits) := by
  intro size result
  have stages : result = _ := grow_ofTexts valid start rules angle step (limit.map .int)
  rw [getD_standardLimit] at stages
  rcases checkLength_cases size count (boundOf limit) with
    ⟨within, checked⟩ | ⟨beyond, nameable, refused⟩ | ⟨beyond, unnameable, refused⟩
  · rw [checked] at stages
    exact .inl ⟨within, stages⟩
  · rw [refused] at stages
    exact .inr (.inl ⟨beyond, nameable, stages⟩)
  · rw [refused] at stages
    exact .inr (.inr ⟨beyond, unnameable, stages⟩)

theorem grow_of_le (within : (symbolsAfter start rules count).length ≤ boundOf limit) :
    (Recipe.mk (.ofTexts start rules) iterations angle step).grow (limit.map .int) =
      drawTree (Command.ofSymbols (symbolsAfter start rules count)) angle step := by
  rcases grow_ofTexts_cases valid start rules angle step limit with
    ⟨-, drawing⟩ | ⟨beyond, -, -⟩ | ⟨beyond, -, -⟩
  · exact drawing
  · exact absurd within (Int.not_le.mpr beyond)
  · exact absurd within (Int.not_le.mpr beyond)

/-- Within the limit, and with an angle and a step that can be drawn with, a shoot grows as the
symbols of the recipe tell. -/
theorem grow_eq_of_le (within : (symbolsAfter start rules count).length ≤ boundOf limit)
    {radians length : Float} (parameters : drawingParameters angle step = .ok (radians, length)) :
    (Recipe.mk (.ofTexts start rules) iterations angle step).grow (limit.map .int) =
      Shoot.tree radians length (Command.ofSymbols (symbolsAfter start rules count)) := by
  rw [grow_of_le valid start rules angle step limit within, drawTree_eq _ parameters]

theorem grow_growthLimit_iff :
    (∃ named reached bound, (Recipe.mk (.ofTexts start rules) iterations angle step).grow
        (limit.map .int) = .error (.growthLimit named reached bound)) ↔
      boundOf limit < (symbolsAfter start rules count).length ∧
        Nameable (symbolsAfter start rules count).length count (boundOf limit) := by
  rcases grow_ofTexts_cases valid start rules angle step limit with
    ⟨within, drawing⟩ | ⟨beyond, nameable, refused⟩ | ⟨-, unnameable, refused⟩
  · refine ⟨?_, fun tooLong => absurd tooLong.1 (Int.not_lt.mpr within)⟩
    rintro ⟨named, reached, bound, failed⟩
    nomatch drawTree_error (drawing.symm.trans failed)
  · exact ⟨fun _ => ⟨beyond, nameable⟩, fun _ => ⟨_, _, _, refused⟩⟩
  · refine ⟨?_, fun tooLong => absurd tooLong.2 unnameable⟩
    rintro ⟨named, reached, bound, failed⟩
    nomatch refused.symm.trans failed

theorem grow_tooManyDigits_iff :
    (Recipe.mk (.ofTexts start rules) iterations angle step).grow (limit.map .int) =
        .error .tooManyDigits ↔
      boundOf limit < (symbolsAfter start rules count).length ∧
        ¬ Nameable (symbolsAfter start rules count).length count (boundOf limit) := by
  rcases grow_ofTexts_cases valid start rules angle step limit with
    ⟨within, drawing⟩ | ⟨-, nameable, refused⟩ | ⟨beyond, unnameable, refused⟩
  · refine ⟨fun failed => ?_, fun tooLong => absurd tooLong.1 (Int.not_lt.mpr within)⟩
    nomatch drawTree_error (drawing.symm.trans failed)
  · refine ⟨fun failed => ?_, fun tooLong => absurd nameable tooLong.2⟩
    nomatch refused.symm.trans failed
  · exact ⟨fun _ => ⟨beyond, unnameable⟩, fun _ => refused⟩

variable {start rules angle step limit}

theorem length_le_of_grow
    (passed : ∀ fault, (Recipe.mk (.ofTexts start rules) iterations angle step).grow
      (limit.map .int) = .error fault → fault.OfDrawing) :
    (symbolsAfter start rules count).length ≤ boundOf limit := by
  rcases grow_ofTexts_cases valid start rules angle step limit with
    ⟨within, -⟩ | ⟨-, -, refused⟩ | ⟨-, -, refused⟩
  · exact within
  · nomatch passed _ refused
  · nomatch passed _ refused

theorem exists_segments_of_grow {tree : Branch Float}
    (grown : (Recipe.mk (.ofTexts start rules) iterations angle step).grow (limit.map .int) =
      .ok tree) :
    ∃ segments : List (Segment Float),
      tree.traverse.map Branch.segment = Segment.root :: segments ∧
        segments.length = (symbolsAfter start rules count).count 'F' := by
  rcases grow_ofTexts_cases valid start rules angle step limit with
    ⟨-, drawing⟩ | ⟨-, -, refused⟩ | ⟨-, -, refused⟩
  · exact exists_segments_of_drawTree (drawing.symm.trans grown)
  · nomatch refused.symm.trans grown
  · nomatch refused.symm.trans grown

end Recipe

end Topiary
