import Topiary.Numeral.Fixed
import Topiary.Survey.Document

set_option autoImplicit false

/-!
# Sheets as texts

A sheet is written with its columns aligned for reading, or as comma-separated lines.
-/

namespace Topiary

def alignedPlaces : Nat := 6

def padLeft (width : Nat) (content : String) : String :=
  String.ofList (List.replicate (width - content.length) ' ') ++ content

namespace Sheet

def column (sheet : Sheet) (index : Nat) : List Value :=
  sheet.rows.filterMap fun row => row[index]?

/-- The texts of the cells of one column: its real numbers all have the same number of decimals,
as few as show them. -/
def cellTexts (cells : List Value) : List String :=
  let numbers := cells.filterMap fun cell =>
    match cell with
    | .real number => some number
    | _ => none
  let places := Numeral.placesNeeded alignedPlaces numbers
  cells.map fun cell =>
    match cell with
    | .real number => Numeral.fixed places number
    | other => other.plain

/-- One column of numbers with its title, aligned to the right; a blank stands before the title. -/
def alignedColumn (title : String) (cells : List Value) : List String :=
  let texts := (" " ++ title) :: cellTexts cells
  let width := texts.foldl (fun most content => max most content.length) 0
  texts.map (padLeft width)

def alignedLines (sheet : Sheet) : List String :=
  let columns := sheet.columns.zipIdx.map fun (title, index) =>
    alignedColumn title (sheet.column index)
  (List.range (sheet.rows.length + 1)).map fun line =>
    " ".intercalate (columns.filterMap fun column => column[line]?)

/-- A cell in a comma-separated line. A real number is written with the fewest digits that read
back, and nothing stands for an absent text. -/
def cellField (cell : Value) : String :=
  match cell with
  | .null => ""
  | .text content =>
    if content.toList.any fun character =>
        character == ',' || character == '"' || character == '\n' || character == '\r' then
      "\"" ++ content.replace "\"" "\"\"" ++ "\""
    else content
  | other => other.plain

def separatedLines (sheet : Sheet) : List String :=
  ",".intercalate sheet.columns ::
    sheet.rows.map fun row => ",".intercalate (row.map cellField)

end Sheet

end Topiary
