import Topiary.Grammar.Tally
import Topiary.Grammar.Token

set_option autoImplicit false

/-!
# Expansion

A start grows through a number of generations. The number is a parameter from outside
and is checked first. The length of the result can be had without the result.
-/

namespace Topiary

/-- The number of generations that a parameter asks for. A truth value is no number here, and
neither is a real number without a fraction. -/
def generations (iterations : Value) : Except Fault Nat :=
  match iterations with
  | .int count => if count < 0 then .error (.iterationsNegative count) else .ok count.toNat
  | given => .error (.iterationsNotWhole given)

def symbolsAfter (start : String) (rules : Rules) (count : Nat) : List Char :=
  deriveTimes rules.usable count start.toList

def tallyAfter (start : String) (rules : Rules) (count : Nat) : Tally :=
  Tally.nextTimes (Tally.productions rules.usable) count (Tally.ofSymbols start.toList)

namespace Grammar

def symbolsAfter (grammar : Grammar) (count : Nat) : Except Fault (List Char) :=
  match grammar with
  | .ofTexts start rules => .ok (Topiary.symbolsAfter start rules count)
  | .loose start rules => tokenExpansion start rules count

def lengthAfter (grammar : Grammar) (count : Nat) : Except Fault Value :=
  match grammar with
  | .ofTexts start rules => .ok (.int (tallyAfter start rules count).total)
  | .loose start rules => tokenCount start rules count

def expansion (grammar : Grammar) (iterations : Value) : Except Fault (List Char) :=
  match generations iterations with
  | .ok count => grammar.symbolsAfter count
  | .error fault => .error fault

def expansionLength (grammar : Grammar) (iterations : Value) : Except Fault Value :=
  match generations iterations with
  | .ok count => grammar.lengthAfter count
  | .error fault => .error fault

end Grammar

end Topiary
