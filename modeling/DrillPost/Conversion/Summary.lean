import DrillPost.Conversion.State

/-!
# The summary of a conversion

The counts and warnings that a conversion ends with. `Tally` is what is counted while lines are
read; `Summary` adds the number of blocks.
-/

namespace DrillPost.Conversion

open Excellon

/-- What is counted while lines are read. -/
structure Tally where
  /-- The lines read, blank ones among them. -/
  linesRead : Nat := 0
  toolsDefined : Nat := 0
  toolChanges : Nat := 0
  holes : Nat := 0
  unit : Option LengthUnit := none
  warnings : Array Warning := #[]
  deriving DecidableEq, Repr

/-- The counts after one more line, whose action is given. -/
def Tally.next (t : Tally) (line : Text) (a : Action) : Tally :=
  let t := { t with linesRead := t.linesRead + 1 }
  match a with
  | .setUnit unit => { t with unit := some unit }
  | .defineTool .. => { t with toolsDefined := t.toolsDefined + 1 }
  | .selectTool _ => { t with toolChanges := t.toolChanges + 1 }
  | .drill .. => { t with holes := t.holes + 1 }
  | .reject anomaly => { t with warnings := t.warnings.push ⟨t.linesRead, anomaly, line⟩ }
  | .idle | .closeHeader | .openHeader | .endProgram => t

@[simp] theorem Tally.linesRead_next (t : Tally) (line : Text) (a : Action) :
    (t.next line a).linesRead = t.linesRead + 1 := by
  cases a <;> rfl

structure Summary extends Tally where
  gcodeLines : Nat := 0
  deriving DecidableEq, Repr

def Tally.malformedCount (t : Tally) : Nat :=
  t.warnings.countP fun w => w.anomaly == .malformedNumber

end DrillPost.Conversion
