import Topiary.Branch.Pruning
import Topiary.Service.Form
import Topiary.Species.Catalog
import Topiary.Survey.Document

set_option autoImplicit false

/-!
# Answers

The service keeps nothing between requests. Each request brings all that a tree grows
from, and with a branch to be pruned also the ids that were pruned before.
-/

namespace Topiary.Service

/-! ## What a tree is grown from -/

structure Plan where
  /-- The id of the species, or null if the request brought a grammar of its own. -/
  speciesId : Value
  grammar : Grammar
  iterations : Int
  angle : Value
  stepSize : Value

namespace Plan

/-- Fills the gaps of a form. The named species, or else the standard one, has the defaults; its
grammar is taken unless the form has one. -/
def ofForm (form : TreeForm) : Except Fault Plan :=
  let chosen : Except Fault Species := match form.speciesId with
    | none | some "" => .ok Catalog.standard
    | some id => Catalog.species (.text id)
  chosen.map fun species =>
    { speciesId := if form.start.isSome then .null else species.id
      grammar := match form.start with
        | some start => .ofTexts start form.rules
        | none => species.grammar
      iterations := form.iterations
      angle := (form.angle.map Value.real).getD species.defaultAngle
      stepSize := (form.stepSize.map Value.real).getD species.defaultStep }

def recipe (plan : Plan) : Recipe :=
  ⟨plan.grammar, .int plan.iterations, plan.angle, plan.stepSize⟩

def symbolCount (plan : Plan) : Except Fault Value :=
  plan.grammar.lengthAfter plan.iterations.toNat

def toValue (plan : Plan) : Value :=
  .dict [
    ("species_id", plan.speciesId),
    ("axiom", plan.grammar.startValue),
    ("rules", plan.grammar.rulesValue),
    ("iterations", .int plan.iterations),
    ("angle", plan.angle),
    ("step_size", plan.stepSize)]

end Plan

/-! ## Answers about trees -/

structure TreeAnswer where
  rootId : String
  symbolCount : Value
  statistics : Statistics Float
  segments : List (Entry Float)
  plan : Plan

namespace TreeAnswer

def ofTree (tree : Branch Float) (plan : Plan) : Except Fault TreeAnswer :=
  plan.symbolCount.map fun symbolCount =>
    ⟨tree.id, symbolCount, Statistics.ofTree tree, tree.entries, plan⟩

def toValue (answer : TreeAnswer) : Value :=
  .dict [
    ("root_id", .text answer.rootId),
    ("n_symbols", answer.symbolCount),
    ("stats", answer.statistics.toValue),
    ("segments", .list (answer.segments.map Entry.toValue)),
    ("params", answer.plan.toValue)]

end TreeAnswer

structure PruneAnswer where
  removedIds : List String
  prunedIds : List String
  summary : Comparison Float
  tree : TreeAnswer

namespace PruneAnswer

def toValue (answer : PruneAnswer) : Value :=
  .dict [
    ("removed_ids", .list (answer.removedIds.map .text)),
    ("pruned_ids", .list (answer.prunedIds.map .text)),
    ("summary", answer.summary.toValue),
    ("tree", answer.tree.toValue)]

end PruneAnswer

def growForm (form : TreeForm) : Except Fault (Plan × Branch Float) :=
  match Plan.ofForm form with
  | .error fault => .error fault
  | .ok plan => (plan.recipe.grow none).map fun tree => (plan, tree)

def answerTree (form : TreeForm) : Except Fault TreeAnswer :=
  match growForm form with
  | .error fault => .error fault
  | .ok (plan, tree) => TreeAnswer.ofTree tree plan

/-- Prunes a branch of the full tree of a form. Pruning the root or an unknown branch takes
nothing away. -/
def answerPruning (form : PruneForm) : Except Fault PruneAnswer :=
  match growForm form.tree with
  | .error fault => .error fault
  | .ok (plan, full) =>
    let removed := if form.branchId = rootId then ∅ else full.idsFrom form.branchId
    let gone := IdSet.ofIds form.prunedIds ∪ removed
    let pruned := full.without gone
    (TreeAnswer.ofTree pruned plan).map fun answer =>
      ⟨removed.toList, gone.toList, Comparison.ofTrees full pruned, answer⟩

end Topiary.Service
