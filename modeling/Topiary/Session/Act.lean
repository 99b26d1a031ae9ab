import Topiary.Session.Operation

set_option autoImplicit false

/-!
# Operations step by step

`Session.perform` lets an operation succeed or fail as a whole. Here the operations go step by
step through checks, growth and assignments, on a session that keeps what was assigned before a
step failed. The record of the session may be of any kind, so adding to it and looking up in it
are steps that can fail.
-/

namespace Topiary.Session

open MonadExcept (ofExcept)

/-- Steps on a session. If one fails, what those before it have assigned stays. -/
abbrev Act (α : Type) : Type :=
  EStateM Fault (Session GivenRecord) α

namespace Act

/-! ## Parameters -/

def forgetPruned : Act Unit :=
  modify fun session => { session with pruned := .set .empty }

def choose (species : Species) : Act Unit := do
  modify fun session => { session with species := species }
  modify fun session => { session with angle := species.defaultAngle }
  modify fun session => { session with stepSize := species.defaultStep }
  forgetPruned

def withIterations (value : Value) : Act Unit := do
  match value with
  | .int count =>
    let iterations ←
      ofExcept (checkBounds "iterations" (.int count) Settings.standard.iterationsRange.toList)
    modify fun session => { session with iterations := iterations }
  | given => throw (.iterationsNotWhole given)

/-- Sets a real parameter: its range is checked first, then it is made a real number. -/
def withReal (name : String) (bounds : Bounds)
    (assign : Session GivenRecord → Value → Session GivenRecord) (value : Value) : Act Unit := do
  let checked ← ofExcept (checkBounds name value bounds.toList)
  let number ← ofExcept checked.asReal
  modify fun session => assign session (.real number)

def withAngle : Value → Act Unit :=
  withReal "angle" Settings.standard.angleRange
    fun session angle => { session with angle := angle }

def withStepSize : Value → Act Unit :=
  withReal "step_size" Settings.standard.stepRange
    fun session stepSize => { session with stepSize := stepSize }

def withThickness : Value → Act Unit :=
  withReal "thickness" Settings.standard.thicknessRange
    fun session thickness => { session with thickness := thickness }

def restart : Act Unit := do
  modify fun session =>
    { session with iterations := .int Settings.standard.defaultIterations }
  modify fun session => { session with angle := session.species.defaultAngle }
  modify fun session => { session with stepSize := session.species.defaultStep }
  modify fun session =>
    { session with thickness := .real Settings.standard.defaultThickness }
  forgetPruned

/-! ## Trees -/

def wholeTree : Act GrownTree := do
  let session ← get
  let _ ← ofExcept session.recipe.key
  match session.grown.filter fun kept => kept.recipe.agrees session.recipe with
  | some kept => return kept
  | none =>
    let tree ← ofExcept (session.recipe.grow none)
    let grown : GrownTree := ⟨session.recipe, tree, session.growths⟩
    modify fun session =>
      { session with grown := some grown, growths := session.growths + 1 }
    return grown

def trimmedTree : Act (Branch Float) := do
  let grown ← wholeTree
  let session ← get
  ofExcept (session.pruned.trim grown.tree)

/-- Adds ids to the record. The record is not touched where there is nothing to add. -/
def record (removed : IdSet) : Act Unit :=
  if removed.isEmpty then pure ()
  else do
    let session ← get
    let pruned ← ofExcept (session.pruned.including removed)
    set { session with pruned := pruned }

def prune (id : String) : Act IdSet :=
  if id = rootId then pure ∅
  else do
    let grown ← wholeTree
    record (grown.tree.idsFrom id)
    return grown.tree.idsFrom id

def comparison : Act (Comparison Float) := do
  let grown ← wholeTree
  let trimmed ← trimmedTree
  return .ofTrees grown.tree trimmed

end Act

/-! ## Operations and runs -/

def enact : Operation → Act Outcome
  | .choose species => (fun _ => .nothing) <$> Act.choose species
  | .withIterations value => (fun _ => .nothing) <$> Act.withIterations value
  | .withAngle value => (fun _ => .nothing) <$> Act.withAngle value
  | .withStepSize value => (fun _ => .nothing) <$> Act.withStepSize value
  | .withThickness value => (fun _ => .nothing) <$> Act.withThickness value
  | .wholeTree => .grown <$> Act.wholeTree
  | .trimmedTree => .tree <$> Act.trimmedTree
  | .prune id => .ids <$> Act.prune id
  | .forgetPruned => (fun _ => .nothing) <$> Act.forgetPruned
  | .restart => (fun _ => .nothing) <$> Act.restart
  | .comparison => .comparison <$> Act.comparison

/-- The session that steps have left at their end or at their failure. -/
def left {σ α : Type} : EStateM.Result Fault σ α → σ
  | .ok _ next => next
  | .error _ last => last

def afterEnact (session : Session GivenRecord) (operation : Operation) : Session GivenRecord :=
  left ((enact operation).run session)

def enactAll (session : Session GivenRecord) (operations : List Operation) : Session GivenRecord :=
  operations.foldl afterEnact session

@[simp] theorem enactAll_cons (session : Session GivenRecord) (operation : Operation)
    (rest : List Operation) :
    session.enactAll (operation :: rest) = (session.afterEnact operation).enactAll rest := rfl

/-- A session with a set for a record among those with a record of any kind. -/
def given (session : Session) : Session GivenRecord :=
  { session with pruned := .set session.pruned }

end Topiary.Session
