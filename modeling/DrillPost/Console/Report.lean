import DrillPost.Console.Arguments
import DrillPost.Conversion.Fault
import DrillPost.Conversion.Summary
import DrillPost.Settings.Store

/-!
# The report on the console

What the program tells its user: who it is, what it reads and writes, what it finds in the header
and how it ends. A failure is told with what the program was doing, from the outside in.

* `Report`: the lines of the report;
* `Usage.report`: what is told when the arguments ask for no conversion;
* `Failure`, `Failure.chain`, `Failure.exitCode`: why the program fails.
-/

namespace DrillPost.Console

def version : String := "0.1.0"

def versionLine : String := "e2g " ++ version

namespace Report

def banner (buildDate : String) : List String :=
  ["==== Excellon to G-code converter ====",
    "Version: " ++ version ++ " (" ++ buildDate ++ ")", ""]

def paths (input output : Path) : List String :=
  [">>> Excellon File: " ++ input.text, ">>> GCode File: " ++ output.text,
    ">>> Converting File..."]

def event : Conversion.Event → List String
  | .headerStarted => ["\tGenerating GCode Header..."]
  | .toolDefined number diameter =>
    ["\tFound Tool: " ++ String.ofList number ++ " with diameter: " ++ String.ofList diameter]
  | .toolSelected tool => ["\tConverting drill cycle for Tool " ++ toString tool.toNat]
  | .unitSet unit => ["\tSetting units to " ++ unit.name ++ " (" ++ unit.symbol ++ ")..."]
  | .programEnded | .warned _ => []

def success (s : Conversion.Summary) : List String :=
  ["", toString s.holes ++ " hole(s), " ++ toString s.toolChanges ++ " tool change(s), " ++
      toString s.gcodeLines ++ " G-code line(s)"] ++
    (if s.warnings.isEmpty then []
      else [toString s.warnings.size ++ " line(s) replaced by diagnostic comments"]) ++
    ["", "SUCCESS!!", ""]

def text (lines : List String) : String := String.join (lines.map (· ++ "\n"))

end Report

def synopsis : String := "Usage: e2g [OPTIONS] <INPUT>"

def help : List String :=
  ["Convert an Excellon drill file into a G-code drilling program", "", synopsis, "",
    "Arguments:", "  <INPUT>  Excellon drill file", "", "Options:",
    "  -o, --output <OUTPUT>  Output file [default: <INPUT>-gcode.nc]",
    "  -c, --config <CONFIG>  Settings file (.toml or .json)",
    "      --strict           Do not write output when a line has a malformed number",
    "  -v, --verbose          Debug logging",
    "  -q, --quiet            Only report errors",
    "      --log-json         Emit logs as JSON lines",
    "  -h, --help             Print help",
    "  -V, --version          Print version"]

namespace Usage

def message : Usage → String
  | help | version => ""
  | unknownArgument => "unexpected argument"
  | invalidValue => "an option needs a value that is not empty"
  | tooManyValues => "a flag takes no value"
  | argumentConflict => "arguments exclude each other, or one is there twice"
  | missingArgument => "the input file is missing"

/-- What is told when the arguments ask for no conversion. -/
def report : Usage → List String
  | help => Console.help
  | version => [versionLine]
  | u => ["error: " ++ u.message, "", synopsis]

end Usage

inductive Cause
  | conversion (fault : Conversion.Fault)
  | settings (fault : SettingsFault)
  | other (message : String)

/-- What ends the program, and what it was doing, from the outside in. -/
structure Failure where
  contexts : List String := []
  cause : Cause

def settingsExitCode : Nat := 4

namespace Cause

def message : Cause → String
  | conversion fault => fault.message
  | settings fault => fault.message
  | other message => message

def behind : Cause → Option String
  | conversion fault => fault.cause.map (·.message)
  | settings fault => fault.cause
  | other _ => none

end Cause

namespace Failure

/-- The failure in words: what the program was doing, the cause, and what is behind it. -/
def chain (f : Failure) : String :=
  ": ".intercalate (f.contexts ++ f.cause.message :: f.cause.behind.toList)

def exitCode (f : Failure) : Nat :=
  match f.cause with
  | .conversion fault => fault.exitCode
  | .settings _ => settingsExitCode
  | .other _ => 1

def report (f : Failure) : List String := ["", "ERROR: " ++ f.chain]

end Failure

end DrillPost.Console
