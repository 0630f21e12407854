import DrillPost.Files.Fault
import DrillPost.Files.Path

/-!
# Faults of a conversion

What ends the conversion of a file without a program.
-/

namespace DrillPost.Conversion

inductive Fault
  | inputOpen (path : Path) (fault : FileFault)
  /-- Reading stopped after some lines. -/
  | inputRead (path : Path) (lineNumber : Nat) (fault : FileFault)
  | outputWrite (path : Path) (fault : FileFault)
  /-- So many lines have malformed numbers, and none may. -/
  | strictViolation (count : Nat)
  deriving DecidableEq, Repr

namespace Fault

def cause : Fault → Option FileFault
  | inputOpen _ fault | inputRead _ _ fault | outputWrite _ fault => some fault
  | strictViolation _ => none

def message : Fault → String
  | inputOpen path fault => "Failed to open input file " ++ path.text ++ ": " ++ fault.message
  | inputRead path lineNumber fault =>
    "Failed to read input file " ++ path.text ++ " after line " ++ toString lineNumber ++ ": " ++
      fault.message
  | outputWrite path fault => "Failed to write output file " ++ path.text ++ ": " ++ fault.message
  | strictViolation count =>
    "Strict mode: " ++ toString count ++ " line(s) could not be converted cleanly"

def exitCode : Fault → Nat
  | inputOpen .. | inputRead .. => 1
  | outputWrite .. => 2
  | strictViolation _ => 3

end Fault

end DrillPost.Conversion
