import Topiary.Value

set_option autoImplicit false

/-!
# JSON texts of values

A number with a point or an exponent is read as a real number, any other as a whole
number of any size. Of two entries of an object with the same key the later one
counts. Texts are written in ASCII.
-/

namespace Topiary.Json

/-! ## Reading -/

def isSpace (character : Char) : Bool :=
  character == ' ' || character == '\t' || character == '\n' || character == '\r'

def codeUnit? : List Char → Option (Nat × List Char)
  | a :: b :: c :: d :: rest => do
    let digits ← [a, b, c, d].mapM Text.hexValue?
    some (digits.foldl (fun value digit => 16 * value + digit) 0, rest)
  | _ => none

/-- The character that a code unit begins, with a second unit where it is the first of a pair.
A unit without its partner becomes the replacement character. -/
def unitCharacter (unit : Nat) (rest : List Char) : Char × List Char :=
  let replacement := Char.ofNat 0xfffd
  if 0xd800 ≤ unit && unit < 0xdc00 then
    match rest with
    | '\\' :: 'u' :: more =>
      match codeUnit? more with
      | some (second, after) =>
        if 0xdc00 ≤ second && second < 0xe000 then
          (Char.ofNat (0x10000 + (unit - 0xd800) * 0x400 + (second - 0xdc00)), after)
        else (replacement, rest)
      | none => (replacement, rest)
    | _ => (replacement, rest)
  else if 0xdc00 ≤ unit && unit < 0xe000 then (replacement, rest)
  else (Char.ofNat unit, rest)

def readString? : Nat → List Char → List Char → Option (String × List Char)
  | 0, _, _ => none
  | fuel + 1, text, read =>
    match text with
    | [] => none
    | '"' :: rest => some (String.ofList read.reverse, rest)
    | '\\' :: 'u' :: rest =>
      match codeUnit? rest with
      | some (unit, after) =>
        let (character, following) := unitCharacter unit after
        readString? fuel following (character :: read)
      | none => none
    | '\\' :: mark :: rest =>
      match mark with
      | 'n' => readString? fuel rest ('\n' :: read)
      | 't' => readString? fuel rest ('\t' :: read)
      | 'r' => readString? fuel rest ('\r' :: read)
      | 'b' => readString? fuel rest (Char.ofNat 8 :: read)
      | 'f' => readString? fuel rest (Char.ofNat 12 :: read)
      | '"' => readString? fuel rest ('"' :: read)
      | '\\' => readString? fuel rest ('\\' :: read)
      | '/' => readString? fuel rest ('/' :: read)
      | _ => none
    | character :: rest => readString? fuel rest (character :: read)

def isNumberCharacter (character : Char) : Bool :=
  character.isDigit || character == '-' || character == '+' || character == '.' ||
    character == 'e' || character == 'E'

def readNumber? (text : List Char) : Option (Value × List Char) :=
  let token := text.takeWhile isNumberCharacter
  let rest := text.dropWhile isNumberCharacter
  let (negative, digits) := Numeral.splitSign token
  if token.isEmpty then none
  else if !digits.isEmpty && digits.all Char.isDigit then
    let size : Int := Numeral.digitsValue digits
    some (.int (if negative then -size else size), rest)
  else (Numeral.readReal? token).map fun number => (.real number, rest)

def setEntry (entries : List (String × Value)) (key : String) (value : Value) :
    List (String × Value) :=
  if entries.any (·.1 == key) then
    entries.map fun entry => if entry.1 == key then (key, value) else entry
  else entries ++ [(key, value)]

mutual

def readValue? : Nat → List Char → Option (Value × List Char)
  | 0, _ => none
  | fuel + 1, text =>
    match text.dropWhile isSpace with
    | '"' :: rest => (readString? (rest.length + 1) rest []).map fun (content, after) =>
        (.text content, after)
    | '[' :: rest =>
      match rest.dropWhile isSpace with
      | ']' :: after => some (.list [], after)
      | _ => readItems? fuel rest []
    | '\x7b' :: rest =>
      match rest.dropWhile isSpace with
      | '\x7d' :: after => some (.dict [], after)
      | _ => readEntries? fuel rest []
    | 't' :: 'r' :: 'u' :: 'e' :: rest => some (.bool true, rest)
    | 'f' :: 'a' :: 'l' :: 's' :: 'e' :: rest => some (.bool false, rest)
    | 'n' :: 'u' :: 'l' :: 'l' :: rest => some (.null, rest)
    | rest => readNumber? rest

def readItems? : Nat → List Char → List Value → Option (Value × List Char)
  | 0, _, _ => none
  | fuel + 1, text, read =>
    match readValue? fuel text with
    | none => none
    | some (item, rest) =>
      match rest.dropWhile isSpace with
      | ',' :: more => readItems? fuel more (item :: read)
      | ']' :: after => some (.list (item :: read).reverse, after)
      | _ => none

def readEntries? : Nat → List Char → List (String × Value) → Option (Value × List Char)
  | 0, _, _ => none
  | fuel + 1, text, read =>
    match text.dropWhile isSpace with
    | '"' :: afterQuote =>
      match readString? (afterQuote.length + 1) afterQuote [] with
      | none => none
      | some (key, afterKey) =>
        match afterKey.dropWhile isSpace with
        | ':' :: afterColon =>
          match readValue? fuel afterColon with
          | none => none
          | some (value, rest) =>
            let entries := setEntry read key value
            match rest.dropWhile isSpace with
            | ',' :: more => readEntries? fuel more entries
            | '\x7d' :: after => some (.dict entries, after)
            | _ => none
        | _ => none
    | _ => none

end

/-- A JSON text with nothing but spaces around it. -/
def read? (text : String) : Option Value :=
  let characters := text.toList
  match readValue? (characters.length + 1) characters with
  | some (value, rest) => if rest.all isSpace then some value else none
  | none => none

/-! ## Writing -/

def writeUnit (unit : Nat) : List Char :=
  '\\' :: 'u' :: Text.hexadecimal 4 unit

def writeCharacter (character : Char) : List Char :=
  let code := character.toNat
  if character = '"' || character = '\\' then ['\\', character]
  else if character = '\n' then ['\\', 'n']
  else if character = '\r' then ['\\', 'r']
  else if character = '\t' then ['\\', 't']
  else if 0x20 ≤ code && code < 0x7f then [character]
  else if code < 0x10000 then writeUnit code
  else
    let offset := code - 0x10000
    writeUnit (0xd800 + offset / 0x400) ++ writeUnit (0xdc00 + offset % 0x400)

def writeStringOnto (written content : String) : String :=
  let body := content.foldl
    (fun out character => (writeCharacter character).foldl String.push out) (written.push '"')
  body.push '"'

mutual

def writeOnto (written : String) : Value → String
  | .null => written ++ "null"
  | .bool truth => written ++ if truth then "true" else "false"
  | .int number => written ++ toString number
  | .real number => written ++ Numeral.shortest Value.realStyle number
  | .text content => writeStringOnto written content
  | .list [] => written ++ "[]"
  | .list (item :: rest) => (writeItemsOnto (writeOnto (written.push '[') item) rest).push ']'
  | .dict [] => (written.push '\x7b').push '\x7d'
  | .dict ((key, value) :: rest) =>
    (writeEntriesOnto (writeOnto ((writeStringOnto (written.push '\x7b') key).push ':') value)
      rest).push '\x7d'

def writeItemsOnto (written : String) : List Value → String
  | [] => written
  | item :: rest => writeItemsOnto (writeOnto (written.push ',') item) rest

def writeEntriesOnto (written : String) : List (String × Value) → String
  | [] => written
  | (key, value) :: rest =>
    writeEntriesOnto (writeOnto ((writeStringOnto (written.push ',') key).push ':') value) rest

end

def write (value : Value) : String :=
  writeOnto "" value

end Topiary.Json
