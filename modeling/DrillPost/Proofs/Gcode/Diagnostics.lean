import DrillPost.Proofs.Gcode.Reading
import Mathlib

/-!
# The remarks about rejected lines read back

A program says of each line that it could not use what is wrong with it, and quotes the line. These
remarks can be told from all other lines by what they begin with, whatever they quote, so the
quotations are read back as they were meant.

* `opening`, `unquote`: what such a remark begins with, and the line quoted in the rest of it;
* `diagnostic`, `diagnostics`: what a line of the program says, and what all of them say;
* `Line.rejection?`: what a line was meant to say;
* `diagnostics_write`: what is read of a program.
-/

namespace DrillPost.Gcode

/-- What the remark about a line with some anomaly begins with. -/
def opening : Anomaly → Text
  | .unrecognizedCode => "; Unknown Code: ".toList
  | .unknownMachineCode => "(-- Unknown MCode: ".toList
  | .malformedNumber => "(-- Malformed numeric field: ".toList

/-- What the remark ends with. -/
def closing : Anomaly → Text
  | .unrecognizedCode => []
  | .unknownMachineCode | .malformedNumber => [')']

/-- The line that is quoted in the rest of the remark: in parentheses, all but the last one. -/
def unquote : Anomaly → Text → Text
  | .unrecognizedCode, rest => rest
  | .unknownMachineCode, rest | .malformedNumber, rest => dropFinal ')' rest

/-- What a line of the program says of a line with a given anomaly. -/
def diagnosticOf (anomaly : Anomaly) (line : Text) : Option (Anomaly × Text) :=
  ((opening anomaly).isPrefixOf? line).map fun rest => (anomaly, unquote anomaly rest)

/-- What a line of the program says of a rejected line. -/
def diagnostic (line : Text) : Option (Anomaly × Text) :=
  [Anomaly.unrecognizedCode, .unknownMachineCode, .malformedNumber].findSome?
    (diagnosticOf · line)

/-- What the lines of a program say of rejected lines, in order. -/
def diagnostics (t : Text) : List (Anomaly × Text) := (splitOn '\n' t).filterMap diagnostic

theorem diagnostics_append_cons {t : Text} (h : '\n' ∉ t) (rest : Text) :
    diagnostics (t ++ '\n' :: rest) = (diagnostic t).toList ++ diagnostics rest := by
  rw [diagnostics, splitOn_append_cons h, List.filterMap_cons]
  cases diagnostic t <;> rfl

/-! ## Lines of a program -/

/-- The rejected line that a line of a program was meant to quote. -/
def Line.rejection? : Line → Option (Anomaly × Text)
  | .remark (.rejected anomaly line) => some (anomaly, line)
  | _ => none

/-- A line that begins otherwise says nothing. -/
theorem diagnostic_eq_none {line : Text} (semicolon : line.head? ≠ some ';')
    (parenthesis : ¬ ['(', '-'] <+: line) : diagnostic line = none := by
  have none_of (anomaly : Anomaly) : (opening anomaly).isPrefixOf? line = none := by
    rw [Option.eq_none_iff_forall_ne_some]
    intro rest h
    obtain rfl := List.isPrefixOf?_eq_some_iff_append_eq.1 h
    cases anomaly with
    | unrecognizedCode => exact semicolon rfl
    | unknownMachineCode | malformedNumber => exact parenthesis ⟨_, rfl⟩
  simp [diagnostic, diagnosticOf, none_of]

/-- No remark of one kind begins like those of another kind. -/
theorem isPrefixOf?_opening (anomaly other : Anomaly) (rest : Text) :
    (opening anomaly).isPrefixOf? (opening other ++ rest) =
      if anomaly = other then some rest else none := by
  split
  · rename_i same
    exact List.isPrefixOf?_eq_some_iff_append_eq.2 (by rw [same])
  · -- The openings differ within their common length, so the rest is not looked at.
    rename_i different
    cases anomaly <;> cases other <;> first | exact absurd rfl different | rfl

theorem diagnostic_opening_append (anomaly : Anomaly) (rest : Text) :
    diagnostic (opening anomaly ++ rest) = some (anomaly, unquote anomaly rest) := by
  simp only [diagnostic, diagnosticOf, isPrefixOf?_opening]
  cases anomaly <;> rfl

theorem unquote_append_closing (anomaly : Anomaly) (line : Text) :
    unquote anomaly (line ++ closing anomaly) = line := by
  cases anomaly with
  | unrecognizedCode => exact List.append_nil line
  | unknownMachineCode | malformedNumber => exact dropFinal_concat_self ')' line

theorem Remark.text_rejected (anomaly : Anomaly) (line : Text) :
    (Remark.rejected anomaly line).text = opening anomaly ++ (line ++ closing anomaly) := by
  cases anomaly with
  | unrecognizedCode => exact congrArg (opening .unrecognizedCode ++ ·) (List.append_nil line).symm
  | unknownMachineCode | malformedNumber => exact List.append_assoc _ line [')']

/-- The remark about a rejected line says what is wrong with it, and quotes it. -/
theorem diagnostic_text_rejected (anomaly : Anomaly) (line : Text) :
    diagnostic (Remark.rejected anomaly line).text = some (anomaly, line) := by
  rw [Remark.text_rejected, diagnostic_opening_append, unquote_append_closing]

theorem Line.diagnostic_text (precision : Option Nat) (n : Nat) (l : Line) :
    diagnostic (l.text precision n) = l.rejection? := by
  cases l with
  | empty => rfl
  | block b => exact diagnostic_eq_none (by simp [text]) (by simp [text])
  | remark r =>
    cases r with
    | rejected anomaly line => exact diagnostic_text_rejected anomaly line
    | rule | title | programEnd => rfl
    | drillStart tool | toolDefinition number diameter =>
      refine diagnostic_eq_none ?_ ?_ <;>
      · simp only [text]
        unfold Remark.text
        simp

/-- **What is read of a program** about rejected lines is what it was meant to say. -/
theorem diagnostics_write (precision : Option Nat) (n : Nat) {p : Program}
    (h : ∀ l ∈ p, l.Flat) :
    diagnostics (write precision n p) = p.filterMap Line.rejection? := by
  induction p generalizing n with
  | nil => rfl
  | cons l p ih =>
    have hl : l.Flat := h l List.mem_cons_self
    rw [write_cons, diagnostics_append_cons (l.lineFeed_notMem_text precision n hl),
      ih _ fun m hm => h m (List.mem_cons_of_mem l hm), l.diagnostic_text, List.filterMap_cons]
    cases l.rejection? <;> rfl

end DrillPost.Gcode
