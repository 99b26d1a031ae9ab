import Topiary.Branch.PruneRecord
import Topiary.Species.Catalog
import Topiary.Survey.Table

set_option autoImplicit false

/-!
# Sessions

A session holds what a user has chosen and which branches have been pruned. The full
tree is grown when it is first needed and kept until its recipe changes; the pruned
tree is made from it each time. Pruned ids outlive changes of angle, step and
iterations, and are forgotten when the species changes. An operation that fails has
no effect.
-/

namespace Topiary

/-- A full tree that has been grown, and for what. Every tree that is grown in a session gets a
number of its own, so that two answers show the same tree exactly if the numbers agree. -/
structure GrownTree where
  recipe : Recipe
  tree : Branch Float
  number : Nat

/-- What a user has chosen, with the record of what is pruned. The record is a set of ids, unless
something else was put in its place from outside. -/
structure Session (Record : Type := PruneRecord) where
  species : Species
  iterations : Value
  angle : Value
  stepSize : Value
  thickness : Value
  pruned : Record
  grown : Option GrownTree
  growths : Nat

namespace Session

variable {Record : Type}

def initial : Session where
  species := Catalog.standard
  iterations := .int Settings.standard.defaultIterations
  angle := Catalog.standard.defaultAngle
  stepSize := Catalog.standard.defaultStep
  thickness := .real Settings.standard.defaultThickness
  pruned := .empty
  grown := none
  growths := 0

/-! ## Parameters -/

def choose (session : Session) (species : Species) : Session :=
  { session with
    species := species
    angle := species.defaultAngle
    stepSize := species.defaultStep
    pruned := .empty }

def withIterations (session : Session Record) (value : Value) : Except Fault (Session Record) :=
  match value with
  | .int count =>
    (checkBounds "iterations" (.int count) Settings.standard.iterationsRange.toList).map
      fun iterations => { session with iterations := iterations }
  | given => .error (.iterationsNotWhole given)

def realInRange (name : String) (value : Value) (bounds : Bounds) : Except Fault Value :=
  match checkBounds name value bounds.toList with
  | .error fault => .error fault
  | .ok checked => checked.asReal.map .real

def withAngle (session : Session Record) (value : Value) : Except Fault (Session Record) :=
  (realInRange "angle" value Settings.standard.angleRange).map
    fun angle => { session with angle := angle }

def withStepSize (session : Session Record) (value : Value) : Except Fault (Session Record) :=
  (realInRange "step_size" value Settings.standard.stepRange).map
    fun stepSize => { session with stepSize := stepSize }

def withThickness (session : Session Record) (value : Value) : Except Fault (Session Record) :=
  (realInRange "thickness" value Settings.standard.thicknessRange).map
    fun thickness => { session with thickness := thickness }

def restart (session : Session) : Session :=
  { session with
    iterations := .int Settings.standard.defaultIterations
    angle := session.species.defaultAngle
    stepSize := session.species.defaultStep
    thickness := .real Settings.standard.defaultThickness
    pruned := .empty }

def forgetPruned (session : Session) : Session :=
  { session with pruned := .empty }

/-! ## Trees -/

def recipe (session : Session Record) : Recipe :=
  ⟨session.species.grammar, session.iterations, session.angle, session.stepSize⟩

def regrow (session : Session Record) : Except Fault (GrownTree × Session Record) :=
  match session.recipe.grow none with
  | .error fault => .error fault
  | .ok tree =>
    let grown : GrownTree := ⟨session.recipe, tree, session.growths⟩
    .ok (grown, { session with grown := some grown, growths := session.growths + 1 })

/-- The full tree: the one that is kept if it was grown for the present recipe. A recipe without a
key cannot be compared, and shows no tree. -/
def wholeTree (session : Session Record) : Except Fault (GrownTree × Session Record) :=
  match session.recipe.key, session.grown with
  | .error fault, _ => .error fault
  | .ok _, some grown =>
    if grown.recipe.agrees session.recipe then .ok (grown, session) else session.regrow
  | .ok _, none => session.regrow

def trimmedTree (session : Session) : Except Fault (Branch Float × Session) :=
  (session.wholeTree).map fun (grown, session) => (grown.tree.without session.pruned.ids, session)

/-- Prunes a branch with all that grows from it, and tells which ids that takes away. The root
and an unknown branch take nothing away; for the root no tree is grown. -/
def prune (session : Session) (id : String) : Except Fault (IdSet × Session) :=
  if id = rootId then .ok (∅, session)
  else
    (session.wholeTree).map fun (grown, session) =>
      let removed := grown.tree.idsFrom id
      (removed, { session with pruned := session.pruned.including removed })

def comparison (session : Session) : Except Fault (Comparison Float × Session) :=
  match session.wholeTree with
  | .error fault => .error fault
  | .ok (grown, session) =>
    (session.trimmedTree).map fun (pruned, session) =>
      (Comparison.ofTrees grown.tree pruned, session)

end Session

end Topiary
