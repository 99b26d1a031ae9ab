import Topiary.Session.Basic

set_option autoImplicit false

/-!
# Sessions and documents

A session can begin with choices from a document, and shows its choices as one.
-/

namespace Topiary.Session

def toValue (session : Session) : Value :=
  .dict [
    ("species", session.species.id),
    ("iterations", session.iterations),
    ("angle", session.angle),
    ("step_size", session.stepSize),
    ("thickness", session.thickness),
    ("n_pruned", .int session.pruned.size)]

def recipeValue (session : Session) : Except Fault Value :=
  session.recipe.key

def fieldNames : List String :=
  ["species", "iterations", "angle", "step_size", "thickness", "pruned_ids"]

def recordOf (choices : List (String × Value)) : Except Fault PruneRecord :=
  match choices.lookup "pruned_ids" with
  | some value => PruneRecord.ofValue value
  | none => .ok .empty

/-- A session that begins with the given choices. They are not checked against their ranges; the
species is looked up first, then the pruned ids, then the names of the choices. -/
def ofChoices (choices : List (String × Value)) : Except Fault Session :=
  let species := match choices.lookup "species" with
    | some value => Catalog.speciesOrDescription value
    | none => .ok initial.species
  match species with
  | .error fault => .error fault
  | .ok species =>
    match recordOf choices with
    | .error fault => .error fault
    | .ok record =>
      if choices.all fun choice => fieldNames.contains choice.1 then
        .ok { initial with
          species := species
          iterations := (choices.lookup "iterations").getD initial.iterations
          angle := (choices.lookup "angle").getD initial.angle
          stepSize := (choices.lookup "step_size").getD initial.stepSize
          thickness := (choices.lookup "thickness").getD initial.thickness
          pruned := record }
      else .error .wrongFields

end Topiary.Session
