import Topiary.Text.Digit

set_option autoImplicit false

/-!
# Addresses

A request names its target by a reference, either with a scheme and a host or relative
to the service. Only the path tells targets apart: queries and fragments are left out,
dot segments are resolved, and escapes are undone.
-/

namespace Topiary.Service.Address

/-! ## References -/

structure Reference where
  scheme : List Char
  authority : List Char
  path : List Char
  deriving Repr, DecidableEq

def isSchemeCharacter (character : Char) : Bool :=
  character.isAlphanum || character == '+' || character == '-' || character == '.'

/-- A scheme with its colon in front of a text, and the rest. The scheme may be empty, but it
begins with a letter otherwise. -/
def splitScheme (text : List Char) : List Char × List Char :=
  let scheme := text.takeWhile isSchemeCharacter
  match text.dropWhile isSchemeCharacter with
  | ':' :: rest => if scheme.head?.all Char.isAlpha then (scheme, rest) else ([], text)
  | _ => ([], text)

def splitAuthority (text : List Char) : List Char × List Char :=
  match text with
  | '/' :: '/' :: rest => (rest.takeWhile (· != '/'), rest.dropWhile (· != '/'))
  | _ => ([], text)

def Reference.ofString (reference : String) : Reference :=
  let plain := reference.toList.takeWhile fun character => character != '?' && character != '#'
  let (scheme, hierarchy) := splitScheme plain
  let (authority, path) := splitAuthority hierarchy
  ⟨scheme, authority, path⟩

/-- The host of a reference, without a user in front and a number behind. -/
def Reference.host (reference : Reference) : List Char :=
  let afterUser := (reference.authority.reverse.takeWhile (· != '@')).reverse
  afterUser.takeWhile (· != ':')

def Reference.isAbsolute (reference : Reference) : Bool :=
  !reference.scheme.isEmpty && !reference.host.isEmpty

/-! ## Paths -/

/-- Adds a segment to the segments before it, the last one first. One dot stays where it is, and
two dots go back by a segment, but not past the beginning. -/
def addSegment (segments : List (List Char)) (segment : List Char) : List (List Char) :=
  if segment = ['.'] then segments
  else if segment = ['.', '.'] then
    if segments = [[]] then segments else segments.drop 1
  else segment :: segments

def withoutDots (path : List Char) : List Char :=
  let segments := (path.splitOn '/').foldl addSegment []
  ['/'].intercalate segments.reverse

def Reference.resolved (reference : Reference) : List Char :=
  let path :=
    if reference.scheme.isEmpty && reference.authority.isEmpty then reference.path
    else withoutDots reference.path
  let rooted := if reference.isAbsolute then path else '/' :: path.dropWhile (· == '/')
  match withoutDots rooted with
  | [] => ['/']
  | path => path

/-- Undoes the escapes of ASCII characters. Other escapes are left, since no target has them. -/
def undoEscapes : List Char → List Char
  | [] => []
  | '%' :: first :: second :: rest =>
    match Text.hexValue? first, Text.hexValue? second with
    | some high, some low =>
      if high < 8 then Char.ofNat (16 * high + low) :: undoEscapes rest
      else '%' :: undoEscapes (first :: second :: rest)
    | _, _ => '%' :: undoEscapes (first :: second :: rest)
  | character :: rest => character :: undoEscapes rest

/-- The path to which a reference leads. Escapes are undone once by the sender and once where the
request arrives. -/
def pathOf (reference : String) : List Char :=
  undoEscapes (undoEscapes (Reference.ofString reference).resolved)

end Topiary.Service.Address
