import Topiary.Demonstration

set_option autoImplicit false

/-!
# The command line

Shows the demonstration and writes its two tables.
-/

namespace Topiary

def writeSheet (path : String) (sheet : Sheet) : IO Unit :=
  IO.FS.writeFile path ("\n".intercalate sheet.separatedLines ++ "\n")

def showDemonstration : IO UInt32 := do
  match Demonstration.run with
  | .error fault =>
    IO.eprintln fault.message
    return 1
  | .ok demonstration =>
    for line in demonstration.lines do
      IO.println line
    IO.FS.createDirAll "artifacts"
    writeSheet "artifacts/control_segments.csv" demonstration.controlSheet
    writeSheet "artifacts/pruned_segments.csv" demonstration.prunedSheet
    return 0

end Topiary

def main : IO UInt32 :=
  Topiary.showDemonstration
