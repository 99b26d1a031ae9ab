import Topiary.Drawing.Turtle

set_option autoImplicit false

/-!
# Commands

The symbols that a turtle obeys. Every other symbol only steers the growth of a
grammar and leaves no trace in the drawing.
-/

namespace Topiary

inductive Command where
  | draw
  /-- Turn about an axis by the branching angle, or by its opposite. -/
  | turn (axis : Axis) (opposite : Bool)
  /-- Turn about the up direction by a half turn. -/
  | turnBack
  | opening
  | closing
  deriving Repr, DecidableEq

namespace Command

def ofSymbol? (symbol : Char) : Option Command :=
  if symbol = 'F' then some .draw
  else if symbol = '+' then some (.turn .up false)
  else if symbol = '-' then some (.turn .up true)
  else if symbol = '&' then some (.turn .left false)
  else if symbol = '^' then some (.turn .left true)
  else if symbol = '\\' then some (.turn .heading false)
  else if symbol = '/' then some (.turn .heading true)
  else if symbol = '|' then some .turnBack
  else if symbol = '[' then some .opening
  else if symbol = ']' then some .closing
  else none

/-- The command of a token, which has to be exactly one symbol. -/
def ofToken? (token : String) : Option Command :=
  match token.toList with
  | [symbol] => ofSymbol? symbol
  | _ => none

/-- The commands of one part of a sequence. A part that is no text gives none, and one that
cannot be looked up is refused. -/
def ofPart (part : Value) : Except Fault (List Command) :=
  match part with
  | .text token => .ok (ofToken? token).toList
  | .list _ | .dict _ => .error (.notAKey part)
  | _ => .ok []

def ofTokens (tokens : List String) : List Command :=
  tokens.filterMap ofToken?

def ofSymbols (symbols : List Char) : List Command :=
  symbols.filterMap ofSymbol?

def ofValue (value : Value) : Except Fault (List Command) :=
  match value with
  | .text content => .ok (ofSymbols content.toList)
  | _ =>
    match value.asParts with
    | .ok parts => (parts.mapM ofPart).map List.flatten
    | .error fault => .error fault

/-! ## Obeying -/

/-- Obeys commands one after another, up to the first that fails. -/
@[specialize] def obeyAll {σ : Type} (obey : σ → Command → Except Fault σ) (state : σ) :
    List Command → Except Fault σ
  | [] => .ok state
  | command :: rest =>
    match obey state command with
    | .ok next => obeyAll obey next rest
    | .error fault => .error fault

end Command

end Topiary
