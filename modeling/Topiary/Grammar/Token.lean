import Topiary.Grammar.Basic

set_option autoImplicit false

/-!
# Tokens

In a grammar that is not made of texts alone, a start or a replacement may be a list,
whose items stand for symbols, or a dictionary, whose keys do. Such a token is
replaced as a whole if a rule has it for a key, and falls into its characters
otherwise. Counting keeps tokens whole, and believes a dictionary that lists how often
its keys occur, so a tally and a derivation can differ.
-/

namespace Topiary.Grammar

/-! ## Derivation -/

def tokenSuccessors (rules : GivenRules) (token : Value) : Except Fault (List Value) :=
  match rules with
  | .dictionary entries =>
    if token.isKey then ((Value.lookup? entries token).getD token).asParts
    else .error (.notAKey token)
  | .other value => .error (.notADictionary value)

def deriveTokens (rules : GivenRules) (tokens : List Value) : Except Fault (List Value) :=
  (tokens.mapM (tokenSuccessors rules)).map List.flatten

def deriveTokensTimes (rules : GivenRules) : Nat → List Value → Except Fault (List Value)
  | 0, tokens => .ok tokens
  | generations + 1, tokens =>
    match deriveTokens rules tokens with
    | .ok next => deriveTokensTimes rules generations next
    | .error fault => .error fault

def tokenSymbols (token : Value) : Except Fault (List Char) :=
  match token with
  | .text content => .ok content.toList
  | _ => .error (.notAText token)

def tokenExpansion (start : Value) (rules : GivenRules) (count : Nat) :
    Except Fault (List Char) := do
  let tokens ← deriveTokensTimes rules count (← start.asParts)
  return (← tokens.mapM tokenSymbols).flatten

/-! ## Counting -/

/-- How often each token occurs. The number is one that was counted, or anything that a dictionary
lists for the token. -/
abbrev TokenTally := List (Value × Value)

namespace TokenTally

/-- Adds occurrences of a token. Only here does a number have to be one. -/
def add : TokenTally → Value → Value → Except Fault TokenTally
  | [], token, more => ((Value.int 0).plus more).map fun number => [(token, number)]
  | (other, number) :: rest, token, more =>
    if other.agrees token then (number.plus more).map fun sum => (other, sum) :: rest
    else (add rest token more).map fun sums => (other, number) :: sums

def addTimes (tally : TokenTally) (times : Value) (other : TokenTally) :
    Except Fault TokenTally :=
  other.foldlM (fun sum entry =>
    match times.times entry.2 with
    | .ok number => sum.add entry.1 number
    | .error fault => .error fault) tally

def addPart (tally : TokenTally) (part : Value) : Except Fault TokenTally :=
  if part.isKey then tally.add part (.int 1) else .error (.notAKey part)

/-- The tally of a start or of a replacement. Nothing counts nothing, and a dictionary is a tally
as it stands. -/
def ofValue (value : Value) : Except Fault TokenTally :=
  match value with
  | .null => .ok []
  | .dict entries => .ok (entries.map fun (key, number) => (.text key, number))
  | _ =>
    match value.asParts with
    | .ok parts => parts.foldlM addPart []
    | .error fault => .error fault

def next (productions : List (Value × TokenTally)) (tally : TokenTally) :
    Except Fault TokenTally :=
  tally.foldlM (fun sum entry =>
    match Value.lookup? productions entry.1 with
    | some replacement => addTimes sum entry.2 replacement
    | none => sum.add entry.1 entry.2) []

def nextTimes (productions : List (Value × TokenTally)) : Nat → TokenTally → Except Fault TokenTally
  | 0, tally => .ok tally
  | generations + 1, tally =>
    match next productions tally with
    | .ok later => nextTimes productions generations later
    | .error fault => .error fault

def total (tally : TokenTally) : Except Fault Value :=
  tally.foldlM (fun sum entry => sum.plus entry.2) (.int 0)

end TokenTally

def tokenProductions (rules : GivenRules) : Except Fault (List (Value × TokenTally)) :=
  match rules with
  | .dictionary entries => entries.mapM fun (key, replacement) =>
      (TokenTally.ofValue replacement).map fun tally => (key, tally)
  | .other value => .error (.notADictionary value)

/-- The number of tokens after a number of generations, as far as it can be told. -/
def tokenCount (start : Value) (rules : GivenRules) (count : Nat) : Except Fault Value := do
  let productions ← tokenProductions rules
  let tally ← TokenTally.ofValue start
  (← TokenTally.nextTimes productions count tally).total

end Topiary.Grammar
