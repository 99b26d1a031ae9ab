import Topiary.Species.Basic

set_option autoImplicit false

/-!
# The catalog

The species that can be chosen by their ids, in the order in which they are shown.
-/

namespace Topiary.Catalog

def entry (id commonName scientificName start : String) (productions : List (String × String))
    (angle step : Float) : Species where
  id := .text id
  commonName := .text commonName
  scientificName := .text scientificName
  grammar := .ofTexts start ⟨productions⟩
  defaultAngle := .real angle
  defaultStep := .real step

def oak : Species :=
  entry "oak" "Oak" "Quercus robur" "F" [("F", "FF-[-F+F+F]+[+F-F-F]")] 22.5 1.0

def birch : Species :=
  entry "birch" "Birch" "Betula pendula" "X" [("X", "F[+X]F[-X]+X"), ("F", "FF")] 20.0 0.6

def pine : Species :=
  entry "pine" "Scots Pine" "Pinus sylvestris" "X" [("X", "F[&+X][&-X]/[&X]FX"), ("F", "FF")]
    25.7 0.5

def apple : Species :=
  entry "apple" "Apple" "Malus domestica" "F" [("F", "F[+F]F[-F][F]")] 25.0 1.2

def willow : Species :=
  entry "willow" "Weeping Willow" "Salix babylonica" "A" [("A", "F[&+A][&-A]\\\\A")] 35.0 1.0

def all : List Species :=
  [oak, birch, pine, apple, willow]

def standard : Species := oak

def find? (id : String) : Option Species :=
  all.find? fun species => species.id.agrees (.text id)

def toValue : Except Fault Value :=
  (all.mapM Species.toValue).map .list

/-- The species that a parameter names. A number or a missing value names none, and a list or a
dictionary is refused. -/
def species (id : Value) : Except Fault Species :=
  match id with
  | .text name =>
    match find? name with
    | some species => .ok species
    | none => .error (.unknownSpecies id)
  | .list _ | .dict _ => .error (.notAKey id)
  | _ => .error (.unknownSpecies id)

def speciesOrDescription (value : Value) : Except Fault Species :=
  match value with
  | .dict _ => Species.ofValue value
  | _ => species value

end Topiary.Catalog
