import Topiary.Grammar.Rules

set_option autoImplicit false

/-!
# Counting symbols

How often each symbol occurs after some generations can be computed without writing
the text: an occurrence of a symbol turns into the occurrences in its replacement.
The cost depends on the number of different symbols, not on the length of the text.
-/

namespace Topiary

/-- How often each symbol occurs. A symbol is listed once at most. -/
abbrev Tally := List (Char × Nat)

namespace Tally

def count (tally : Tally) (symbol : Char) : Nat :=
  (tally.lookup symbol).getD 0

def add : Tally → Char → Nat → Tally
  | [], symbol, more => [(symbol, more)]
  | (other, number) :: rest, symbol, more =>
    if other = symbol then (other, number + more) :: rest
    else (other, number) :: add rest symbol more

def addTimes (tally : Tally) (times : Nat) (other : Tally) : Tally :=
  other.foldl (fun sum entry => sum.add entry.1 (times * entry.2)) tally

def ofSymbols (symbols : List Char) : Tally :=
  symbols.foldl (fun tally symbol => tally.add symbol 1) []

def total (tally : Tally) : Nat :=
  tally.foldl (fun sum entry => sum + entry.2) 0

def productions (usable : List (Char × List Char)) : List (Char × Tally) :=
  usable.map fun (symbol, replacement) => (symbol, ofSymbols replacement)

def next (productions : List (Char × Tally)) (tally : Tally) : Tally :=
  tally.foldl (fun sum entry =>
    match productions.lookup entry.1 with
    | some replacement => sum.addTimes entry.2 replacement
    | none => sum.add entry.1 entry.2) []

def nextTimes (productions : List (Char × Tally)) : Nat → Tally → Tally
  | 0, tally => tally
  | generations + 1, tally => nextTimes productions generations (next productions tally)

end Tally

end Topiary
