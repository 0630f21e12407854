import DrillPost.Text.Blank

/-!
# Warnings

A line of a drill file that stands for nothing is not converted: a remark takes its place in the
program, and a warning says which line it was and what is wrong with it.
-/

namespace DrillPost

inductive Anomaly
  /-- The line starts with a letter that has no meaning here. -/
  | unrecognizedCode
  /-- The number of a machine code has no meaning here, or there is none. -/
  | unknownMachineCode
  /-- A tool line without a tool number, or a coordinate line that is not an X and a Y number. -/
  | malformedNumber
  deriving DecidableEq, Repr

namespace Anomaly

def description : Anomaly → String
  | unrecognizedCode => "unrecognized code"
  | unknownMachineCode => "unknown M-code"
  | malformedNumber => "malformed numeric field"

def key : Anomaly → String
  | unrecognizedCode => "unrecognized_code"
  | unknownMachineCode => "unknown_m_code"
  | malformedNumber => "malformed_numeric_field"

def ofKey (key : String) : Option Anomaly :=
  [unrecognizedCode, unknownMachineCode, malformedNumber].find? (·.key == key)

theorem ofKey_key (a : Anomaly) : ofKey a.key = some a := by cases a <;> decide

end Anomaly

structure Warning where
  /-- The place of the line in its file, counted from one. -/
  lineNumber : Nat
  anomaly : Anomaly
  /-- The line without blanks at its ends. -/
  line : Text
  deriving DecidableEq, Repr

def Warning.message (w : Warning) : String :=
  "line " ++ toString w.lineNumber ++ ": " ++ w.anomaly.description ++ " `" ++
    String.ofList w.line ++ "`"

end DrillPost
