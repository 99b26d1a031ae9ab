import Topiary.Proofs.Branch.Closed
import Topiary.Proofs.Service.Answers
import Topiary.Proofs.Service.Dialogue

set_option autoImplicit false

/-!
# The numbers of an answer fit each other

The length of the expansion is counted without writing it, segments are drawn by the turtle
and counted in walks over two trees, and the removed ones are the difference of two tables.
Answers can be checked against the recipe that they echo: all these numbers tell of the same
expansion and the same full tree.
-/

namespace Topiary

theorem Grammar.rulesOf?_texts (productions : List (String × String)) :
    rulesOf? (productions.map fun (key, replacement) => (key, .text replacement)) =
      some productions := by
  induction productions with
  | nil => rfl
  | cons production rest ih =>
      simp only [List.map_cons, rulesOf?, ih]
      rfl

theorem Grammar.rulesValue_ofTexts (start : String) (rules : Rules) :
    (ofTexts start rules).rulesValue =
      .dict (rules.productions.map fun (key, replacement) => (key, .text replacement)) := by
  simp only [rulesValue, givenRules, GivenRules.ofTexts, List.map_map]
  rfl

/-- A grammar of texts can be read from its start and its rules. -/
theorem Grammar.IsTexts.ofValues {grammar : Grammar} (texts : grammar.IsTexts) :
    Grammar.ofValues grammar.startValue grammar.rulesValue = grammar := by
  obtain ⟨start, rules, rfl⟩ := texts
  simp only [Grammar.ofValues, startValue, rulesValue_ofTexts, rulesOf?_texts]

theorem IdSet.pairwise_toList (ids : IdSet) : ids.toList.Pairwise (· < ·) := by
  have ordered : ids.toList.Pairwise fun first second => compare first second = .lt :=
    Std.ExtTreeSet.ordered_toList
  exact ordered.imp fun less => compareOfLessAndEq_eq_lt.mp less

theorem Branch.length_sub_length_without {α : Type} {tree : Branch α}
    (distinct : tree.DistinctIds) (gone : IdSet) :
    (tree.descendants.length : Int) - (tree.without gone).descendants.length =
      (tree.traverse.countP fun branch => tree.CutOff gone branch.id : Nat) := by
  have lengths := length_pruned_add_countP distinct gone
  rw [← without_eq distinct, ← traverse_eq_preorder,
    ← traverse_eq_preorder] at lengths
  have whole := congrArg List.length (traverse_eq_descendants tree)
  have rest := congrArg List.length (traverse_eq_descendants (tree.without gone))
  rw [List.length_cons] at whole rest
  omega

namespace Service

def echoedRecipe? (answer : Value) : Option Recipe := do
  let params ← answer.get? "params"
  let start ← params.get? "axiom"
  let rules ← params.get? "rules"
  let iterations ← params.get? "iterations"
  let angle ← params.get? "angle"
  let step ← params.get? "step_size"
  return ⟨.ofValues start rules, iterations, angle, step⟩

def numberIn? (answer : Value) (part field : String) : Option Value :=
  (answer.get? part).bind (·.get? field)

/-- An answer counts the symbols to which the recipe expands that it echoes. -/
structure Accounts (answer : Value) (recipe : Recipe) (symbols : List Char) : Prop where
  echoed : echoedRecipe? answer = some recipe
  expanded : recipe.grammar.expansion recipe.iterations = .ok symbols
  counted : answer.get? "n_symbols" = some (.int symbols.length)
  limited : symbols.length ≤ Settings.standard.maxSymbols

/-! ## Trees -/

variable {form : TreeForm} {plan : Plan} {full tree : Branch Float} {answer : TreeAnswer}

theorem Plan.accounts (planned : Plan.ofForm form = .ok plan)
    (grows : plan.recipe.grow none = .ok full) :
    ∃ symbols, plan.recipe.grammar.expansion plan.recipe.iterations = .ok symbols ∧
      plan.symbolCount = .ok (.int symbols.length) ∧
      symbols.length ≤ Settings.standard.maxSymbols ∧
      full.descendants.length = symbols.count 'F' := by
  obtain ⟨start, rules, texts⟩ := Plan.isTexts_of_ofForm planned
  have recipe : plan.recipe =
      ⟨.ofTexts start rules, .int plan.iterations, plan.angle, plan.stepSize⟩ := by
    rw [Plan.recipe, texts]
  rw [recipe] at grows ⊢
  -- Only where a tree has grown are the iterations known not to be negative.
  have valid : generations (.int plan.iterations) = .ok plan.iterations.toNat := by
    obtain ⟨symbols, -, -, written, -, -⟩ := Recipe.exists_drawing_of_grow grows
    rw [Recipe.symbols, Grammar.expansion] at written
    by_cases negative : plan.iterations < 0
    · simp [generations, negative] at written
    · exact if_neg negative
  have standard : (none : Option Int).map Value.int = none := rfl
  rw [← standard] at grows
  have passed : ∀ fault, (Recipe.mk (.ofTexts start rules) (.int plan.iterations) plan.angle
      plan.stepSize).grow ((none : Option Int).map .int) = .error fault → fault.OfDrawing := by
    intro fault failed
    cases failed.symm.trans grows
  have within := Recipe.length_le_of_grow valid passed
  have limit : Recipe.boundOf none = (Settings.standard.maxSymbols : Int) := rfl
  rw [limit] at within
  obtain ⟨segments, walk, number⟩ := Recipe.exists_segments_of_grow valid grows
  refine ⟨symbolsAfter start rules plan.iterations.toNat, ?_, ?_, Int.ofNat_le.mp within, ?_⟩
  · rw [Grammar.expansion, valid]
    rfl
  · rw [symbolCount, texts, Grammar.lengthAfter_ofTexts]
  · have lengths := congrArg List.length walk
    rw [Branch.traverse_eq_descendants, List.length_map, List.length_cons, List.length_cons,
      number] at lengths
    exact Nat.succ.inj lengths

theorem TreeAnswer.accounts {symbols : List Char} (planned : Plan.ofForm form = .ok plan)
    (expanded : plan.recipe.grammar.expansion plan.recipe.iterations = .ok symbols)
    (counted : plan.symbolCount = .ok (.int symbols.length))
    (limited : symbols.length ≤ Settings.standard.maxSymbols)
    (made : TreeAnswer.ofTree tree plan = .ok answer) :
    Accounts answer.toValue plan.recipe symbols := by
  obtain ⟨count, sameCount, rfl⟩ := map_eq_ok_iff.mp made
  cases counted.symm.trans sameCount
  have echoed : echoedRecipe? (TreeAnswer.toValue ⟨tree.id, .int symbols.length, Statistics.ofTree tree,
      tree.entries, plan⟩) = some ⟨.ofValues plan.grammar.startValue plan.grammar.rulesValue,
        .int plan.iterations, plan.angle, plan.stepSize⟩ := rfl
  rw [(Plan.isTexts_of_ofForm planned).ofValues] at echoed
  exact ⟨echoed, expanded, rfl, limited⟩

/-- An answer counts and lists the segments of its tree. -/
theorem TreeAnswer.lists (made : TreeAnswer.ofTree tree plan = .ok answer) :
    numberIn? answer.toValue "stats" "n_segments" = some (.int tree.descendants.length) ∧
      ∃ segments, answer.toValue.get? "segments" = some (.list segments) ∧
        segments.map (·.get? "id") =
          (tree.id :: tree.descendants.map Branch.id).map (some ∘ .text) := by
  obtain ⟨count, -, rfl⟩ := map_eq_ok_iff.mp made
  refine ⟨rfl, tree.entries.map Entry.toValue, rfl, ?_⟩
  rw [Branch.entries, Branch.traverse_eq_descendants, List.map_map, List.map_map, List.map_cons,
    List.map_cons, List.map_map]
  rfl

/-- An answer about a full tree, whose segments are those that the symbols of its recipe draw. -/
structure TreeConsistent (answer : Value) (recipe : Recipe) (symbols : List Char) : Prop where
  accounts : Accounts answer recipe symbols
  segmentCount : numberIn? answer "stats" "n_segments" = some (.int (symbols.count 'F'))
  segments : ∃ segments, answer.get? "segments" = some (.list segments) ∧
    segments.length = symbols.count 'F' + 1

theorem treeConsistent_of_serve {body : Option Value} {document : Value}
    (answered : serve .tree body = .answer 200 document) :
    ∃ recipe symbols, TreeConsistent document recipe symbols := by
  obtain ⟨entries, form, plan, tree, answer, -, -, grown, made, rfl⟩ :=
    exists_tree_of_serve answered
  obtain ⟨planned, grows⟩ := growForm_eq_ok grown
  obtain ⟨symbols, expanded, counted, limited, drawn⟩ := Plan.accounts planned grows
  have accounts := TreeAnswer.accounts planned expanded counted limited made
  obtain ⟨number, segments, isList, ids⟩ := answer.lists made
  rw [drawn] at number
  refine ⟨plan.recipe, symbols, accounts, number, segments, isList, ?_⟩
  have lengths := congrArg List.length ids
  simpa [drawn] using lengths

/-! ## Prunings -/

/-- An answer about a pruning, against the full tree of the recipe that it echoes. The tree lists
the root and the segments that are shown. -/
structure PruningConsistent (request answer tree : Value) (recipe : Recipe) (symbols : List Char)
    (full : Branch Float) (removed pruned shown : List String) : Prop where
  treePart : answer.get? "tree" = some tree
  accounts : Accounts tree recipe symbols
  grows : recipe.grow none = .ok full
  fullCount : numberIn? answer "summary" "n_segments_full" = some (.int (symbols.count 'F'))
  removedIds : answer.get? "removed_ids" = some (.list (removed.map .text))
  prunedIds : answer.get? "pruned_ids" = some (.list (pruned.map .text))
  removed_ascending : removed.Pairwise (· < ·)
  pruned_ascending : pruned.Pairwise (· < ·)
  removed_subset : removed ⊆ pruned
  requested_subset : ∀ items, request.get? "pruned_ids" = some (.list items) →
    items ⊆ pruned.map .text
  segments : ∃ segments, tree.get? "segments" = some (.list segments) ∧
    segments.map (·.get? "id") = (rootId :: shown).map (some ∘ .text)
  shown_not_pruned : ∀ id ∈ shown, id ∉ pruned
  segmentCount : numberIn? tree "stats" "n_segments" = some (.int shown.length)
  prunedCount : numberIn? answer "summary" "n_segments_pruned" = some (.int shown.length)
  removedCount : numberIn? answer "summary" "n_removed" =
    some (.int (full.traverse.countP fun branch =>
      full.CutOff (IdSet.ofIds pruned) branch.id))

/-- The numbers of segments in a summary are those below the tops of the two trees. -/
theorem counts_of_summary {outcome : PruneAnswer}
    (summary : outcome.summary = Comparison.ofTrees full tree) :
    numberIn? outcome.toValue "summary" "n_segments_full" = some (.int full.descendants.length) ∧
      numberIn? outcome.toValue "summary" "n_segments_pruned" =
        some (.int tree.descendants.length) ∧
      numberIn? outcome.toValue "summary" "n_removed" =
        some (.int (full.descendants.length - tree.descendants.length)) := by
  have numbers : ∀ field, numberIn? outcome.toValue "summary" field =
      (Comparison.ofTrees full tree).toValue.get? field := by
    intro field
    rw [← summary]
    rfl
  have rows : ∀ tree : Branch Float, (Row.table tree).length = tree.descendants.length :=
    fun tree => List.length_map _
  rw [numbers, numbers, numbers, ← rows, ← rows]
  exact ⟨rfl, rfl, rfl⟩

theorem pruningConsistent_of_serve {body : Option Value} {document : Value}
    (answered : serve .prune body = .answer 200 document) :
    ∃ request tree recipe symbols full removed pruned shown, body = some request ∧
      PruningConsistent request document tree recipe symbols full removed pruned shown := by
  obtain ⟨entries, form, plan, full, answer, isDict, read, grown, made, rfl⟩ :=
    exists_tree_of_serve_prune answered
  obtain ⟨planned, grows⟩ := growForm_eq_ok grown
  obtain ⟨symbols, expanded, counted, limited, drawn⟩ := Plan.accounts planned grows
  have accounts := TreeAnswer.accounts planned expanded counted limited made
  obtain ⟨-, -, prunedRead⟩ := PruneForm.fields_of_ofEntries read
  have distinct := Recipe.distinctIds_of_grow grows
  generalize taken : full.takenFrom form.branchId = removed at made ⊢
  generalize all : IdSet.ofIds form.prunedIds ∪ removed = gone at made ⊢
  have asked : ∀ id ∈ form.prunedIds, id ∈ gone := by
    intro id member
    rw [← all, Std.ExtTreeSet.mem_union_iff, IdSet.mem_ofIds]
    exact .inl member
  obtain ⟨fullCount, prunedCount, removedCount⟩ := counts_of_summary
    (rfl : (PruneAnswer.mk removed.toList gone.toList
      (Comparison.ofTrees full (full.without gone)) answer).summary = _)
  obtain ⟨number, segments, isList, ids⟩ := answer.lists made
  refine ⟨.dict entries, answer.toValue, plan.recipe, symbols, full, removed.toList, gone.toList,
    (full.without gone).descendants.map Branch.id, isDict, ?_⟩
  constructor
  case treePart => rfl
  case accounts => exact accounts
  case grows => exact grows
  case fullCount => rwa [drawn] at fullCount
  case removedIds => rfl
  case prunedIds => rfl
  case removed_ascending => exact removed.pairwise_toList
  case pruned_ascending => exact gone.pairwise_toList
  case removed_subset =>
    intro id member
    rw [Std.ExtTreeSet.mem_toList] at member ⊢
    rw [← all, Std.ExtTreeSet.mem_union_iff]
    exact .inr member
  case requested_subset =>
    intro items given item member
    have isList : entries.lookup "pruned_ids" = some (.list items) := given
    rw [isList] at prunedRead
    obtain ⟨id, idMember, rfl⟩ := exists_text_of_textsField prunedRead member
    exact List.mem_map_of_mem (Std.ExtTreeSet.mem_toList.mpr (asked id idMember))
  case segments =>
    have top : (full.without gone).id = rootId := by
      rw [Branch.without_eq distinct, Branch.id_pruned, Recipe.id_of_grow grows]
    rw [top] at ids
    exact ⟨segments, isList, ids⟩
  case shown_not_pruned =>
    intro id member
    obtain ⟨branch, branchMember, rfl⟩ := List.mem_map.mp member
    rw [Branch.without_eq distinct] at branchMember
    rw [Std.ExtTreeSet.mem_toList]
    exact Branch.not_mem_of_mem_descendants_pruned distinct branchMember
  case segmentCount => rwa [List.length_map]
  case prunedCount => rwa [List.length_map]
  case removedCount =>
    rw [IdSet.ofIds_toList, ← Branch.length_sub_length_without distinct]
    exact removedCount

/-- Every answer with a tree is consistent: its numbers, its lists and the recipe that it echoes
belong to one expansion and one full tree. -/
theorem handle_consistent {request : Request} {document : Value}
    (answered : handle request = .answer 200 document) :
    (Endpoint.ofPath? (Address.pathOf request.target) = some .tree →
        ∃ recipe symbols, TreeConsistent document recipe symbols) ∧
      (Endpoint.ofPath? (Address.pathOf request.target) = some .prune →
        ∃ body tree recipe symbols full removed pruned shown, request.body = some body ∧
          PruningConsistent body document tree recipe symbols full removed pruned shown) :=
  ⟨fun found => treeConsistent_of_serve (serve_of_handle found answered),
    fun found => pruningConsistent_of_serve (serve_of_handle found answered)⟩

/-- A segment is pruned beside the root and an unknown id in the record. -/
theorem handle_consistent_hedge :
    let body := Planting.hedge.document (.list [.text "root-7", .text "root"]) "root-0-0"
    ∃ document tree recipe symbols full removed pruned shown,
      handle ⟨"POST", "/api/prune", some body⟩ = .answer 200 document ∧
        PruningConsistent body document tree recipe symbols full removed pruned shown := by
  intro body
  have found : Endpoint.ofPath? (Address.pathOf "/api/prune") = some .prune := by decide +kernel
  have grows : Planting.hedge.recipe.grow none = .ok _ :=
    (Recipe.grow_eq_of_le rfl Planting.hedge.start Planting.hedge.rules _ _ none (by decide)
      rfl).trans rfl
  obtain ⟨answer, -, answered⟩ :=
    Planting.hedge.exists_answer grows ["root-7", "root"] "root-0-0"
  obtain ⟨_, tree, recipe, symbols, full, removed, pruned, shown, ⟨rfl⟩, consistent⟩ :=
    (handle_consistent answered).2 found
  exact ⟨_, tree, recipe, symbols, full, removed, pruned, shown, answered, consistent⟩

end Service

end Topiary
