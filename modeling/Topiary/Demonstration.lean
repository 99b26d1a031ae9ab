import Topiary.Session.Basic
import Topiary.Survey.Layout

set_option autoImplicit false

/-!
# A demonstration

A species is chosen, its tree is grown, one branch is pruned, the angle is changed,
and the segment tables of both trees are handed out. The report is made in one piece,
before anything of it is shown.
-/

namespace Topiary

structure Demonstration where
  lines : List String
  controlSheet : Sheet
  prunedSheet : Sheet

namespace Demonstration

def heading (title : String) : List String :=
  let rule := String.ofList (List.replicate 70 '=')
  ["", rule, "  " ++ title, rule]

def fixedValue (places : Nat) (value : Value) : String :=
  match value.toReal with
  | .real number => Numeral.fixed places number
  | _ => value.plain

def speciesLines (session : Session) : List String :=
  heading "1. SPECIES" ++
  ["  Species:    " ++ session.species.commonName.plain ++ " (" ++
      session.species.scientificName.plain ++ ")",
    "  Axiom:      " ++ session.species.grammar.startValue.plain,
    "  Rules:      " ++ session.species.grammar.rulesValue.plain,
    "  Iterations: " ++ session.iterations.plain,
    "  Angle:      " ++ fixedValue 1 session.angle ++ "°",
    "  Step size:  " ++ fixedValue 1 session.stepSize]

def treeLines (full : Branch Float) : List String :=
  let statistics := Statistics.ofTree full
  let maxDepth := match statistics.maxDepth with
    | some depth => Value.int depth
    | none => .null
  heading "2. CONTROL TREE" ++
  ["  Segments:     " ++ toString statistics.segments,
    "  Tips:         " ++ toString statistics.tips,
    "  Max depth:    " ++ maxDepth.plain,
    "  Total length: " ++ Numeral.fixed 2 statistics.totalLength,
    "",
    "  Depth profile:"] ++
  full.profileSheet.alignedLines

def pruningLines (target : String) (removed : IdSet) (summary : Comparison Float) :
    List String :=
  heading "3. PRUNE" ++
  ["  Pruned " ++ target ++ ": " ++ toString removed.size ++ " segments removed",
    "  Control: " ++ toString summary.segmentsFull ++ " segments",
    "  Pruned:  " ++ toString summary.segmentsPruned ++ " segments",
    "  Removed: " ++ Numeral.fixed 1 (summary.fractionRemoved * 100.0) ++ "% of total length"]

def angleLines (session : Session) (summary : Comparison Float) : List String :=
  heading "4. CHANGE ANGLE" ++
  ["  Angle now " ++ fixedValue 1 session.angle ++ "° - pruning record kept",
    "  Pruned:  " ++ toString summary.segmentsPruned ++ " segments (removed " ++
      toString summary.segmentsRemoved ++ ")"]

def exportLines : List String :=
  heading "5. EXPORT" ++
  ["  Wrote artifacts/control_segments.csv",
    "  Wrote artifacts/pruned_segments.csv"]

/-- The first side branch off the trunk. -/
def target (full : Branch Float) : String :=
  match full.children with
  | trunk :: _ =>
    match trunk.children with
    | side :: _ => side.id
    | [] => trunk.id
  | [] => full.id

def run : Except Fault Demonstration := do
  let chosen ← (Session.initial.choose Catalog.apple).withIterations (.int 3)
  let (full, grown) ← chosen.wholeTree
  let branch := target full.tree
  let (removed, pruned) ← grown.prune branch
  let (summary, pruned) ← pruned.comparison
  let turned ← pruned.withAngle (.real 35.0)
  let (turnedSummary, turned) ← turned.comparison
  let (control, turned) ← turned.wholeTree
  let (remaining, turned) ← turned.trimmedTree
  return {
    lines := speciesLines chosen ++ treeLines full.tree ++ pruningLines branch removed summary ++
      angleLines turned turnedSummary ++ exportLines
    controlSheet := control.tree.sheet
    prunedSheet := remaining.sheet }

end Demonstration

end Topiary
