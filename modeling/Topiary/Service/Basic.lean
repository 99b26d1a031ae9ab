import Topiary.Service.Address
import Topiary.Service.Answer

set_option autoImplicit false

/-!
# The service

Requests are answered by their target and method: the state of health, the catalog, a
full tree, or a tree with one more branch pruned.
-/

namespace Topiary.Service

structure Request where
  method : String
  target : String
  body : Option Value

inductive Response where
  | answer (status : Nat) (body : Value)
  | rejected (complaints : List Complaint)
  | page

inductive Endpoint where
  | health
  | catalog
  | tree
  | prune
  | manual
  deriving Repr, DecidableEq

namespace Endpoint

def ofName? (name : String) : Option Endpoint :=
  if name = "/" then some .health
  else if name = "/api/species" then some .catalog
  else if name = "/api/tree" then some .tree
  else if name = "/api/prune" then some .prune
  else if name = "/docs" || name = "/docs/oauth2-redirect" || name = "/redoc" ||
    name = "/openapi.json" then some .manual
  else none

/-- The endpoint at a path. A line break at the end of the path does not count. -/
def atPath? (path : List Char) : Option Endpoint :=
  ofName? (String.ofList (if path.getLast? == some '\n' then path.dropLast else path))

/-- The endpoint that a path leads to: the one at the path, or the one at the path without the
slashes at its end. -/
def ofPath? (path : List Char) : Option Endpoint :=
  match atPath? path with
  | some endpoint => some endpoint
  | none =>
    if path.getLast? == some '/' && path != ['/'] then
      atPath? (path.reverse.dropWhile (· == '/')).reverse
    else none

def methods : Endpoint → List String
  | .health | .catalog => ["GET"]
  | .tree | .prune => ["POST"]
  | .manual => ["GET", "HEAD"]

end Endpoint

def detail (status : Nat) (text : String) : Response :=
  .answer status (.dict [("detail", .text text)])

/-- The response to a fault: an unknown species is not found, anything else is a bad request. -/
def ofFault (fault : Fault) : Response :=
  match fault with
  | .unknownSpecies id => detail 404 ("Unknown species: " ++ id.plain)
  | _ => detail 400 fault.message

def respond {form answer : Type} (ofEntries : List (String × Value) → Checked form)
    (act : form → Except Fault answer) (toValue : answer → Value) (body : Option Value) :
    Response :=
  match readForm ofEntries body with
  | .error complaints => .rejected complaints
  | .ok form =>
    match act form with
    | .ok answer => .answer 200 (toValue answer)
    | .error fault => ofFault fault

def serve (endpoint : Endpoint) (body : Option Value) : Response :=
  match endpoint with
  | .health => .answer 200 (.dict [("status", .text "ok"), ("service", .text "PruneCraft API")])
  | .catalog =>
    match Catalog.toValue with
    | .ok document => .answer 200 document
    | .error fault => ofFault fault
  | .tree => respond TreeForm.ofEntries answerTree TreeAnswer.toValue body
  | .prune => respond PruneForm.ofEntries answerPruning PruneAnswer.toValue body
  | .manual => .page

/-- The response to a request. The name of a method is read in either case of letters. -/
def handle (request : Request) : Response :=
  match Endpoint.ofPath? (Address.pathOf request.target) with
  | none => detail 404 "Not Found"
  | some endpoint =>
    if endpoint.methods.contains request.method.toUpper then serve endpoint request.body
    else detail 405 "Method Not Allowed"

end Topiary.Service
