import Topiary.Proofs.Value.Reals
import Topiary.Service.Form

set_option autoImplicit false

/-!
# Reading fields back

What is written into a document with the right kind and within its bounds is read from it
again unchanged.
-/

namespace Topiary

namespace Service

variable (place : List Step)

theorem inBounds_of_atMost? {α : Type} {bounds : Bounds} {toValue : α → Value} {number : α}
    (above : bounds.low.atMost? (toValue number) = some true)
    (below : (toValue number).atMost? bounds.high = some true) :
    inBounds place bounds toValue number = .ok number := by
  rw [inBounds, above, below]
  rfl

theorem iterationsField_int {iterations : Int} (above : 1 ≤ iterations) (below : iterations ≤ 7) :
    iterationsField place (.int iterations) = .ok iterations :=
  inBounds_of_atMost? place (Value.atMost?_int above) (Value.atMost?_int below)

theorem boundedReal_real {low number high : Float} (above : low ≤ number) (below : number ≤ high) :
    boundedReal ⟨.real low, .real high⟩ place (.real number) = .ok number :=
  inBounds_of_atMost? place (Value.atMost?_real above) (Value.atMost?_real below)

/-! ## Fields of several parts -/

theorem Checked.all_map {σ τ : Type} {items : List σ} {read : σ → Checked τ} {content : σ → τ}
    (reads : ∀ item ∈ items, read item = .ok (content item)) :
    Checked.all (items.map read) = .ok (items.map content) := by
  induction items with
  | nil => rfl
  | cons item rest ih =>
      have first := reads item List.mem_cons_self
      have others := ih fun item member => reads item (List.mem_cons_of_mem _ member)
      rw [List.map_cons, Checked.all, first, others]
      rfl

theorem rulesField_dict (rules : Rules) :
    rulesField place
      (.dict (rules.productions.map fun (key, replacement) => (key, .text replacement))) =
        .ok rules := by
  have reads : ∀ production ∈ rules.productions,
      (textField (place ++ [.key production.1]) (.text production.2)).map
        (fun content => (production.1, content)) = .ok (id production) := fun _ _ => rfl
  rw [rulesField, List.map_map]
  exact congrArg (Except.map Rules.mk) ((Checked.all_map reads).trans (by rw [List.map_id]))

theorem textsField_list (contents : List String) :
    textsField place (.list (contents.map .text)) = .ok contents := by
  have reads : ∀ entry ∈ contents.zipIdx,
      textField (place ++ [.position entry.2]) (.text entry.1) = .ok entry.1 := fun _ _ => rfl
  rw [textsField, List.zipIdx_map, List.map_map]
  exact (Checked.all_map reads).trans (by rw [List.zipIdx_map_fst])

/-! ## Forms -/

theorem TreeForm.ofEntries_ok {entries : List (String × Value)} {form : TreeForm}
    (speciesId : optionalField textField (fieldPlace "species_id")
      (entries.lookup "species_id") = .ok form.speciesId)
    (start : optionalField textField (fieldPlace "axiom") (entries.lookup "axiom") =
      .ok form.start)
    (rules : fieldOr rulesField (fieldPlace "rules") (entries.lookup "rules") ⟨[]⟩ =
      .ok form.rules)
    (iterations : fieldOr iterationsField (fieldPlace "iterations")
      (entries.lookup "iterations") Settings.standard.defaultIterations = .ok form.iterations)
    (angle : optionalField (boundedReal Settings.standard.angleRange) (fieldPlace "angle")
      (entries.lookup "angle") = .ok form.angle)
    (stepSize : optionalField (boundedReal Settings.standard.stepRange) (fieldPlace "step_size")
      (entries.lookup "step_size") = .ok form.stepSize) :
    TreeForm.ofEntries entries = .ok form := by
  rw [TreeForm.ofEntries, speciesId, start, rules, iterations, angle, stepSize]
  rfl

theorem PruneForm.ofEntries_ok {entries : List (String × Value)} {form : PruneForm}
    (tree : TreeForm.ofEntries entries = .ok form.tree)
    (branchId : requiredField textField (fieldPlace "branch_id") (entries.lookup "branch_id") =
      .ok form.branchId)
    (prunedIds : fieldOr textsField (fieldPlace "pruned_ids") (entries.lookup "pruned_ids") [] =
      .ok form.prunedIds) :
    PruneForm.ofEntries entries = .ok form := by
  rw [PruneForm.ofEntries, tree, branchId, prunedIds]
  rfl

end Service

end Topiary
