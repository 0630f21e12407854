import DrillPost.Excellon.Field
import DrillPost.LengthUnit
import DrillPost.Warning

/-!
# What a line does

Every line of a drill file stands for one action. Which one hangs on its first character and, for
tools and coordinates, on whether it is read inside the header: there a tool line defines a tool and
coordinates mean nothing, behind it a tool line selects a tool and coordinates are a hole.

* `Action`: what a line can do;
* `Action.ofLine`: what a given line does.
-/

namespace DrillPost.Excellon

inductive Action
  /-- Nothing: a blank line, or coordinates inside the header. -/
  | idle
  | openHeader
  | closeHeader
  | setUnit (unit : LengthUnit)
  | defineTool (number diameter : Text)
  | selectTool (tool : UInt32)
  /-- Coordinates count hundred-thousandths of the unit of length. -/
  | drill (x y : Int)
  | endProgram
  | reject (anomaly : Anomaly)
  deriving DecidableEq, Repr

namespace Action

def ofMachineCode : Option Int → Action
  | none => .reject .unknownMachineCode
  | some code =>
    if code = 30 then .endProgram
    else if code = 48 then .openHeader
    else match LengthUnit.ofMachineCode code with
      | some unit => .setUnit unit
      | none => .reject .unknownMachineCode

/-- A tool number: a whole number of at most 32 bits. -/
def toolNumber (i : Int) : Option UInt32 :=
  if 0 ≤ i && i < UInt32.size then some (UInt32.ofNat i.toNat) else none

/-- The definition of a tool: the first field's text is its number, the second's its diameter. -/
def toolDefinition (t : Text) : Action :=
  match Field.pair t with
  | none => .idle
  | some (tool, diameter) => .defineTool tool.raw ((diameter.map (·.raw)).getD [])

def toolSelection (t : Text) : Action :=
  match ((Field.scan t).bind (·.1.integer)).bind toolNumber with
  | some tool => .selectTool tool
  | none => .reject .malformedNumber

/-- The coordinates of a line: an X field and a Y field, both beginning with a number. -/
def coordinates (t : Text) : Option (Int × Int) :=
  match Field.pair t with
  | some (x, some y) =>
    if x.letter = 'X' ∧ y.letter = 'Y' then
      x.integer.bind fun i => y.integer.map fun j => (i, j)
    else none
  | _ => none

def hole (t : Text) : Action :=
  match coordinates t with
  | some (x, y) => .drill x y
  | none => .reject .malformedNumber

/-- What a line does, inside the header or behind it. The first character counts as it is written;
the fields are read in upper case. -/
def ofLine (inHeader : Bool) (line : Text) : Action :=
  match Text.trim line with
  | [] => .idle
  | c :: r =>
    let fields := Text.upper (c :: r)
    if c = '%' then .closeHeader
    else if c = 'M' then ofMachineCode ((Field.scan fields).bind (·.1.integer))
    else if c = 'T' then if inHeader then toolDefinition fields else toolSelection fields
    else if c = 'X' ∨ c = 'Y' then if inHeader then .idle else hole fields
    else .reject .unrecognizedCode

end Action

end DrillPost.Excellon
