set_option autoImplicit false

/-!
# Grammars of growth

A grammar replaces every symbol of a text at once. A symbol with a rule gives way to its
replacement, every other symbol stays. Symbols are single characters, so a rule whose key is
not exactly one character never applies.
-/

namespace Topiary

/-- Replacements by key. The first rule of a key counts. -/
structure Rules where
  productions : List (String × String)
  deriving Repr, DecidableEq

namespace Rules

def symbol? (key : String) : Option Char :=
  match key.toList with
  | [symbol] => some symbol
  | _ => none

def usable (rules : Rules) : List (Char × List Char) :=
  rules.productions.filterMap fun (key, replacement) =>
    (symbol? key).map fun symbol => (symbol, replacement.toList)

def sorted (rules : Rules) : List (String × String) :=
  rules.productions.mergeSort fun left right => compareOfLessAndEq left.1 right.1 != .gt

/-- Whether two sets of rules have the same replacements, in whatever order they are listed. -/
def agrees (left right : Rules) : Bool :=
  left.sorted == right.sorted

end Rules

/-! ## Derivation -/

def successor (usable : List (Char × List Char)) (symbol : Char) : List Char :=
  (usable.lookup symbol).getD [symbol]

/-- One generation: every symbol is replaced by its successor. -/
def derive (usable : List (Char × List Char)) (symbols : List Char) : List Char :=
  symbols.flatMap (successor usable)

def deriveTimes (usable : List (Char × List Char)) : Nat → List Char → List Char
  | 0, symbols => symbols
  | generations + 1, symbols => deriveTimes usable generations (derive usable symbols)

@[simp] theorem derive_nil (usable : List (Char × List Char)) : derive usable [] = [] := rfl

@[simp] theorem derive_cons (usable : List (Char × List Char)) (symbol : Char)
    (rest : List Char) :
    derive usable (symbol :: rest) = successor usable symbol ++ derive usable rest := by
  simp [derive]

@[simp] theorem derive_append (usable : List (Char × List Char)) (first second : List Char) :
    derive usable (first ++ second) = derive usable first ++ derive usable second := by
  simp [derive]

end Topiary
