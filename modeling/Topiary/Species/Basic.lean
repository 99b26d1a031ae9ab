import Topiary.Growth

set_option autoImplicit false

/-!
# Species

A species is a grammar with the angle and the step that make it look right. The fields
of a species that was described in a document are kept as they were given; what does
not fit shows when it is used.
-/

namespace Topiary

structure Species where
  id : Value
  commonName : Value
  scientificName : Value
  grammar : Grammar
  defaultAngle : Value
  defaultStep : Value

namespace Species

def symbols (species : Species) (iterations : Value) : Except Fault (List Char) :=
  species.grammar.expansion iterations

/-- The full tree of a species, without a limit of growth. An absent angle or step is the one
of the species. -/
def grow (species : Species) (iterations : Value) (angle step : Option Value) :
    Except Fault (Branch Float) :=
  match species.symbols iterations with
  | .error fault => .error fault
  | .ok symbols =>
    drawTree (Command.ofSymbols symbols) (angle.getD species.defaultAngle)
      (step.getD species.defaultStep)

def fieldsBesideRules (species : Species) : List Value :=
  [species.id, species.commonName, species.scientificName, species.grammar.startValue,
    species.defaultAngle, species.defaultStep]

def agrees (left right : Species) : Bool :=
  Value.agreesList false left.fieldsBesideRules right.fieldsBesideRules &&
    left.grammar.agrees right.grammar

/-! ## Documents -/

def toValue (species : Species) : Except Fault Value :=
  species.grammar.rulesDictionary.map fun rules =>
    .dict [
      ("id", species.id),
      ("common_name", species.commonName),
      ("scientific_name", species.scientificName),
      ("axiom", species.grammar.startValue),
      ("rules", rules),
      ("default_angle", species.defaultAngle),
      ("default_step", species.defaultStep)]

def fieldNames : List String :=
  ["id", "common_name", "scientific_name", "axiom", "rules", "default_angle", "default_step"]

/-- A species read from a document. All fields but the two defaults are required, and there may
be no other field. -/
def ofValue (value : Value) : Except Fault Species :=
  match value with
  | .dict entries =>
    if entries.all fun entry => fieldNames.contains entry.1 then
      match value.get? "id", value.get? "common_name", value.get? "scientific_name",
        value.get? "axiom", value.get? "rules" with
      | some id, some commonName, some scientificName, some start, some rules =>
        .ok {
          id := id
          commonName := commonName
          scientificName := scientificName
          grammar := Grammar.ofValues start rules
          defaultAngle := (value.get? "default_angle").getD (.real 22.5)
          defaultStep := (value.get? "default_step").getD (.real 1.0) }
      | _, _, _, _, _ => .error .wrongFields
    else .error .wrongFields
  | _ => .error .wrongFields

end Species

end Topiary
