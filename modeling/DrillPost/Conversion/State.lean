import DrillPost.Excellon.Action
import DrillPost.Gcode.Line
import DrillPost.Settings.Basic

/-!
# The state of a conversion

What is kept from one line of a drill file to the next, what a line adds to the program, and what a
listener hears of it. All of these are functions of the action that the line stands for.

* `State`, `State.next`: what later lines depend on, and how an action changes it;
* `State.program`: what an action adds to the program (`State.blocks_next`: the block count of the
  state counts these lines);
* `Event`, `Event.ofAction`: what a listener hears.
-/

namespace DrillPost.Conversion

open Excellon

/-- What the conversion of a line depends on, apart from the line and the settings. -/
structure State where
  inHeader : Bool := false
  tool : Option UInt32 := none
  /-- Whether the next hole has to start a drilling cycle. -/
  cycleDue : Bool := false
  blocks : Nat := 0
  deriving DecidableEq, Repr

def State.lineCounter (s : State) : Nat := Gcode.numberStep * s.blocks

/-- What an action adds to the program. -/
def State.program (d : Drilling) (s : State) (line : Text) : Action → Gcode.Program
  | .idle | .closeHeader => []
  | .openHeader =>
    [.remark .rule, .remark .title, .remark .rule, .block .preamble, .block .home]
  | .setUnit unit => [.block (.unit unit), .empty]
  | .defineTool number diameter => [.remark (.toolDefinition number diameter)]
  | .selectTool tool =>
    [.empty, .remark (.drillStart tool), .block .spindleStop, .block .coolantOff, .block .goHome,
      .block (.toolChange tool), .block (.spindleStart d.spindleSpeed), .block .workOffset]
  | .drill x y =>
    if s.cycleDue then
      [.block (.rapidTo x y), .block (.rapidHeight d.safeHeight),
        .block (.rapidHeight d.feedHeight),
        .block (.drillCycle x y d.bottomHeight d.feedHeight d.feedRate)]
    else [.block (.hole x y)]
  | .endProgram =>
    [.empty, .remark .programEnd, .block .spindleStop, .block .coolantOff, .block .goHome,
      .block .programStop]
  | .reject anomaly => [.remark (.rejected anomaly line)]

def State.blocksOf (s : State) : Action → Nat
  | .openHeader => 2
  | .setUnit _ => 1
  | .selectTool _ => 6
  | .drill .. => if s.cycleDue then 4 else 1
  | .endProgram => 4
  | .idle | .closeHeader | .defineTool .. | .reject _ => 0

theorem State.blockCount_program (d : Drilling) (s : State) (line : Text) (a : Action) :
    Gcode.blockCount (s.program d line a) = s.blocksOf a := by
  cases h : s.cycleDue <;> cases a <;> simp [program, blocksOf, h, Gcode.Line.weight]

def State.next (s : State) (a : Action) : State :=
  let s := { s with blocks := s.blocks + s.blocksOf a }
  match a with
  | .openHeader => { s with inHeader := true }
  | .closeHeader => { s with inHeader := false }
  | .selectTool tool => { s with tool := some tool, cycleDue := true }
  | .drill .. => { s with cycleDue := false }
  | _ => s

@[simp] theorem State.blocks_next (s : State) (a : Action) :
    (s.next a).blocks = s.blocks + s.blocksOf a := by
  cases a <;> rfl

inductive Event
  | headerStarted
  | toolDefined (number diameter : Text)
  | toolSelected (tool : UInt32)
  | unitSet (unit : LengthUnit)
  | programEnded
  | warned (warning : Warning)
  deriving DecidableEq, Repr

/-- What a listener hears when an action is taken at a line. -/
def Event.ofAction (lineNumber : Nat) (line : Text) : Action → Option Event
  | .openHeader => some .headerStarted
  | .setUnit unit => some (.unitSet unit)
  | .defineTool number diameter => some (.toolDefined number diameter)
  | .selectTool tool => some (.toolSelected tool)
  | .endProgram => some .programEnded
  | .reject anomaly => some (.warned ⟨lineNumber, anomaly, line⟩)
  | .idle | .closeHeader | .drill .. => none

end DrillPost.Conversion
