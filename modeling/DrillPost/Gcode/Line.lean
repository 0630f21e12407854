import DrillPost.Gcode.Number
import DrillPost.LengthUnit
import DrillPost.Threaded
import DrillPost.Warning

/-!
# G-code programs

A program is a list of lines: empty ones, remarks, and blocks, which are what the machine acts on.
Blocks are numbered 10, 20, 30, … when the program is written, so a number is never part of a line.

* `Remark`, `Block`, `Line`: the lines of a program;
* `Remark.text`, `Block.text`: what they look like;
* `write`: the text of a program whose blocks follow a given number of earlier ones
  (`write_append`: programs may be written in pieces);
* `blockCount`: the number of blocks in a program.
-/

namespace DrillPost.Gcode

inductive Remark
  | rule
  | title
  | drillStart (tool : UInt32)
  | programEnd
  | toolDefinition (number diameter : Text)
  /-- The line of the drill file that could not be converted. -/
  | rejected (anomaly : Anomaly) (line : Text)
  deriving DecidableEq, Repr

inductive Block
  /-- Absolute positions, first work offset, continuous path, no scaling, XY plane, no cutter
  compensation, no canned cycle, feed per minute, absolute arc centres, no length offset. -/
  | preamble
  | home
  | goHome
  | workOffset
  | spindleStop
  | coolantOff
  | programStop
  | unit (unit : LengthUnit)
  | toolChange (tool : UInt32)
  | spindleStart (speed : UInt32)
  | rapidTo (x y : Int)
  | rapidHeight (z : Number.Binary64)
  | drillCycle (x y : Int) (bottom retract feed : Number.Binary64)
  /-- One more hole of the drilling cycle. -/
  | hole (x y : Int)
  deriving DecidableEq, Repr

inductive Line
  | empty
  | remark (r : Remark)
  | block (b : Block)
  deriving DecidableEq, Repr

abbrev Program := List Line

def Remark.text : Remark → Text
  | .rule => "( --------------------------------------------------------)".toList
  | .title => "( ------------ EXCELLON TO GCODE CONVERTER ---------------)".toList
  | .drillStart tool =>
    "( --------- DRILL T".toList ++ Number.digits tool.toNat ++ " --------- )".toList
  | .programEnd => "( --------- PROGRAM END --------- )".toList
  | .toolDefinition number diameter =>
    "(T:".toList ++ number ++ " Diameter: ".toList ++ diameter ++ " )".toList
  | .rejected .unrecognizedCode line => "; Unknown Code: ".toList ++ line
  | .rejected .unknownMachineCode line => "(-- Unknown MCode: ".toList ++ line ++ [')']
  | .rejected .malformedNumber line => "(-- Malformed numeric field: ".toList ++ line ++ [')']

def position (precision : Option Nat) (x y : Int) : Text :=
  'X' :: coordinate precision (hundredThousandths x) ++ ' ' :: 'Y' ::
    coordinate precision (hundredThousandths y)

/-- The words of a block, with coordinates and heights to a given precision. -/
def Block.text (precision : Option Nat) : Block → Text
  | .preamble => "G90 G54 G64 G50 G17 G40 G80 G94 G91.1 G49".toList
  | .home => "G30".toList
  | .goHome => "G30 (Go Home)".toList
  | .workOffset => "G54".toList
  | .spindleStop => "M5 (Spindle Stop)".toList
  | .coolantOff => "M9 (Coolant Off)".toList
  | .programStop => "M30 (END)".toList
  | .unit u => u.word.toList ++ " (".toList ++ u.label.toList ++ [')']
  | .toolChange tool =>
    'T' :: Number.digits tool.toNat ++ " G43 H".toList ++ Number.digits tool.toNat ++
      " M6 (Tool Change)".toList
  | .spindleStart speed =>
    'S' :: Number.digits speed.toNat ++ " M3 (Spindle Start)".toList
  | .rapidTo x y => "G0 ".toList ++ position precision x y
  | .rapidHeight z => "G0 Z".toList ++ coordinate precision z
  | .drillCycle x y bottom retract feed =>
    "G98 G81 ".toList ++ position precision x y ++ " Z".toList ++ coordinate precision bottom ++
      " R".toList ++ coordinate precision retract ++ " F".toList ++ feedRate feed
  | .hole x y => position precision x y

def numberStep : Nat := 10

@[simp] theorem numberStep_eq : numberStep = 10 := rfl

/-- The text of a line whose number, if it is a block, comes after `blocks` earlier ones. -/
def Line.text (precision : Option Nat) (blocks : Nat) : Line → Text
  | .empty => []
  | .remark r => r.text
  | .block b =>
    'N' :: Number.digits (numberStep * (blocks + 1)) ++ ' ' :: b.text precision

def Line.weight : Line → Nat
  | .block _ => 1
  | _ => 0

def blockCount : Program → Nat
  | [] => 0
  | l :: p => l.weight + blockCount p

@[simp] theorem blockCount_nil : blockCount [] = 0 := rfl

@[simp] theorem blockCount_cons (l : Line) (p : Program) :
    blockCount (l :: p) = l.weight + blockCount p := rfl

@[simp] theorem blockCount_append (p q : Program) :
    blockCount (p ++ q) = blockCount p + blockCount q := by
  induction p with
  | nil => simp
  | cons l p ih => simp [ih, Nat.add_assoc]

/-- The text of a program that comes after `blocks` blocks; each line ends with a line feed. -/
def write (precision : Option Nat) (blocks : Nat) (p : Program) : Text :=
  (threaded (fun n (l : Line) => (n + l.weight, l.text precision n ++ ['\n'])) blocks p).2.flatten

@[simp] theorem write_nil (precision : Option Nat) (n : Nat) : write precision n [] = [] := rfl

@[simp] theorem write_cons (precision : Option Nat) (n : Nat) (l : Line) (p : Program) :
    write precision n (l :: p) =
      l.text precision n ++ '\n' :: write precision (n + l.weight) p := by
  simp [write, threaded_cons]

theorem write_eq_nil_iff {precision : Option Nat} {n : Nat} {p : Program} :
    write precision n p = [] ↔ p = [] := by
  cases p <;> simp

theorem write_append (precision : Option Nat) (n : Nat) (p q : Program) :
    write precision n (p ++ q) = write precision n p ++ write precision (n + blockCount p) q := by
  induction p generalizing n with
  | nil => simp
  | cons l p ih => simp [ih, Nat.add_assoc]

end DrillPost.Gcode
