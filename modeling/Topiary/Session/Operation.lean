import Topiary.Session.Basic

set_option autoImplicit false

/-!
# Operations of a session

What a user does, as data, so that runs of operations can be spoken about. Each
operation either fails, and then the session stays what it was, or has an outcome and
a next session.
-/

namespace Topiary

inductive Operation where
  | choose (species : Species)
  | withIterations (value : Value)
  | withAngle (value : Value)
  | withStepSize (value : Value)
  | withThickness (value : Value)
  | wholeTree
  | trimmedTree
  | prune (id : String)
  | forgetPruned
  | restart
  | comparison

inductive Outcome where
  | nothing
  | grown (grown : GrownTree)
  | tree (tree : Branch Float)
  | ids (ids : IdSet)
  | comparison (comparison : Comparison Float)

namespace Session

def silently (session : Session) : Outcome × Session :=
  (.nothing, session)

def perform (session : Session) : Operation → Except Fault (Outcome × Session)
  | .choose species => .ok (session.choose species).silently
  | .withIterations value => (session.withIterations value).map silently
  | .withAngle value => (session.withAngle value).map silently
  | .withStepSize value => (session.withStepSize value).map silently
  | .withThickness value => (session.withThickness value).map silently
  | .wholeTree => session.wholeTree.map fun (grown, next) => (.grown grown, next)
  | .trimmedTree => session.trimmedTree.map fun (tree, next) => (.tree tree, next)
  | .prune id => (session.prune id).map fun (ids, next) => (.ids ids, next)
  | .forgetPruned => .ok session.forgetPruned.silently
  | .restart => .ok session.restart.silently
  | .comparison => session.comparison.map fun (comparison, next) => (.comparison comparison, next)

/-- The session after one operation; a failing operation leaves it as it was. -/
def after (session : Session) (operation : Operation) : Session :=
  match session.perform operation with
  | .ok (_, next) => next
  | .error _ => session

def afterAll (session : Session) (operations : List Operation) : Session :=
  operations.foldl after session

@[simp] theorem afterAll_nil (session : Session) : session.afterAll [] = session := rfl

@[simp] theorem afterAll_cons (session : Session) (operation : Operation)
    (rest : List Operation) :
    session.afterAll (operation :: rest) = (session.after operation).afterAll rest := rfl

theorem afterAll_append (session : Session) (first second : List Operation) :
    session.afterAll (first ++ second) = (session.afterAll first).afterAll second := by
  simp [afterAll]

theorem after_of_ok {session next : Session} {operation : Operation} {outcome : Outcome}
    (performed : session.perform operation = .ok (outcome, next)) :
    session.after operation = next := by
  simp [after, performed]

theorem after_of_error {session : Session} {operation : Operation} {fault : Fault}
    (failed : session.perform operation = .error fault) :
    session.after operation = session := by
  simp [after, failed]

end Session

end Topiary
