import Topiary.Grammar.Rules
import Topiary.Parameter

set_option autoImplicit false

/-!
# Grammars as they are given

A grammar comes as a start and as rules. As a rule both are texts throughout; a
grammar from outside may hold values of other kinds, which show only when it is
used.
-/

namespace Topiary

/-- Rules of any kind. The keys of a dictionary can be of every kind that serves as a key. -/
inductive GivenRules where
  | dictionary (entries : List (Value × Value))
  | other (value : Value)

namespace GivenRules

def ofTexts (rules : Rules) : GivenRules :=
  .dictionary (rules.productions.map fun (key, replacement) => (.text key, .text replacement))

def ofValue (value : Value) : GivenRules :=
  match value with
  | .dict entries => .dictionary (entries.map fun (key, replacement) => (.text key, replacement))
  | _ => .other value

def agrees (left right : GivenRules) : Bool :=
  match left, right with
  | .dictionary entries, .dictionary others =>
    entries.length == others.length && entries.all fun (key, replacement) =>
      (Value.lookup? others key).any replacement.agrees
  | .other value, .other another => value.agrees another
  | _, _ => false

def sorted (rules : GivenRules) : Except Fault (List (Value × Value)) :=
  match rules with
  | .dictionary entries =>
    if Value.haveOrder (entries.map Prod.fst) then
      .ok (entries.mergeSort fun left right => left.1.notAfter right.1)
    else .error .unordered
  | .other value => .error (.notADictionary value)

end GivenRules

inductive Grammar where
  /-- The start and all replacements are texts. -/
  | ofTexts (start : String) (rules : Rules)
  /-- Something else is among them. -/
  | loose (start : Value) (rules : GivenRules)

namespace Grammar

def rulesOf? : List (String × Value) → Option (List (String × String))
  | [] => some []
  | (key, .text replacement) :: rest => (rulesOf? rest).map ((key, replacement) :: ·)
  | _ :: _ => none

def ofValues (start rules : Value) : Grammar :=
  match start, rules with
  | .text content, .dict entries =>
    match rulesOf? entries with
    | some productions => .ofTexts content ⟨productions⟩
    | none => .loose start (.ofValue rules)
  | _, _ => .loose start (.ofValue rules)

def startValue : Grammar → Value
  | .ofTexts start _ => .text start
  | .loose start _ => start

def givenRules : Grammar → GivenRules
  | .ofTexts _ rules => .ofTexts rules
  | .loose _ rules => rules

def sortedRules : Grammar → Except Fault (List (Value × Value))
  | .ofTexts _ rules =>
    .ok (rules.sorted.map fun (key, replacement) => (.text key, .text replacement))
  | .loose _ rules => rules.sorted

/-- Whether two grammars have the same start and the same rules, in whatever order these are
listed. -/
def agrees (left right : Grammar) : Bool :=
  match left, right with
  | .ofTexts start rules, .ofTexts otherStart otherRules =>
    start == otherStart && rules.agrees otherRules
  | _, _ => left.startValue.agrees right.startValue && left.givenRules.agrees right.givenRules

/-! ## Rules as a document -/

def keyText : Value → String
  | .null => "null"
  | .bool truth => if truth then "true" else "false"
  | key => key.plain

def rulesValue (grammar : Grammar) : Value :=
  match grammar.givenRules with
  | .dictionary entries => .dict (entries.map fun (key, replacement) => (keyText key, replacement))
  | .other value => value

/-- Puts an entry into a dictionary; the place of a key that is there already is kept. -/
def putEntry (entries : List (String × Value)) (key : String) (value : Value) :
    List (String × Value) :=
  if entries.any fun entry => entry.1 == key then
    entries.map fun entry => if entry.1 == key then (key, value) else entry
  else entries ++ [(key, value)]

def putPair (entries : List (String × Value)) (part : Value × Nat) :
    Except Fault (List (String × Value)) :=
  match part.1.parts? with
  | some [key, value] =>
    if key.isKey then .ok (putEntry entries (keyText key) value) else .error (.notAKey key)
  | some parts => .error (.notAPair part.2 parts.length)
  | none => .error (.notASequence part.1)

/-- The rules as a dictionary. They may also be a sequence of pairs. -/
def rulesDictionary (grammar : Grammar) : Except Fault Value :=
  match grammar.rulesValue with
  | .dict entries => .ok (.dict entries)
  | rules =>
    match rules.parts? with
    | some parts => (parts.zipIdx.foldlM putPair []).map .dict
    | none => .error (.notASequence rules)

end Grammar

end Topiary
