import DrillPost.Console.Arguments
import DrillPost.Console.Report
import DrillPost.Conversion.File
import DrillPost.Log.Filter

/-!
# Runs of the program

One run finds the settings, converts one file and tells how it went. All it does to the world is in
its outcome: the disk, the report, the log and the exit code.

* `Outcome`: what a run leaves behind;
* `records`: the log of a conversion;
* `run`: the run that arguments ask for.
-/

namespace DrillPost.Console

open Conversion

structure Outcome where
  disk : Disk
  report : List String
  /-- What is told even when the program is quiet. -/
  failure : Option Failure := none
  /-- The log, before it is filtered. -/
  log : List Log.Record

def Outcome.exitCode (o : Outcome) : Nat :=
  match o.failure with
  | none => 0
  | some f => f.exitCode

def recordOf : Event → Log.Record
  | .headerStarted => ⟨.debug, .transpiler, "Header started"⟩
  | .toolDefined number diameter =>
    ⟨.debug, .transpiler, "Tool " ++ String.ofList number ++ " defined with diameter " ++
      String.ofList diameter⟩
  | .toolSelected tool => ⟨.debug, .transpiler, "Tool change to T" ++ toString tool.toNat⟩
  | .unitSet unit => ⟨.debug, .transpiler, "Units set to " ++ unit.name⟩
  | .programEnded => ⟨.debug, .transpiler, "Program end"⟩
  | .warned w => ⟨.warn, .transpiler, w.message⟩

/-- The records of a line that has been converted: the line itself, unless it is blank, and what
came of it. -/
def recordsOfLine (line : Text) (r : Result) : List Log.Record :=
  let trimmed := Text.trim line
  let n := r.progress.tally.linesRead
  (if trimmed.isEmpty then []
    else [⟨.trace, .transpiler, "Line " ++ toString n ++ ": " ++ String.ofList trimmed⟩]) ++
    r.events.map recordOf

def recordsOfLines (d : Drilling) (lines : List Text) : List Log.Record :=
  (threaded (fun p line =>
    let r := step d p line
    (r.progress, recordsOfLine line r)) {} lines).2.flatten

def records (s : Settings) (input output : Path) (d : Disk) (o : FileOutcome) :
    List Log.Record :=
  let lines :=
    match openStream d input with
    | .ok stream => stream.lines
    | .error _ => []
  let ending : List Log.Record :=
    match o.result with
    | .ok summary =>
      [⟨.info, .converter, "Wrote " ++ toString summary.gcodeLines ++ " G-code lines for " ++
        toString summary.holes ++ " holes"⟩]
    | .error (.strictViolation count) =>
      [⟨.error, .converter, toString count ++ " malformed line(s), not writing " ++ output.text⟩]
    | .error _ => []
  ⟨.info, .converter, "Converting " ++ input.text ++ " to " ++ output.text⟩ ::
    recordsOfLines s.drilling lines ++ ending

/-- Numbers in records have their shortest digits: by position from `1e-4` up to `1e16`, and with
`.0` when whole. -/
def recordStyle : Number.Style := { positionalRange := some (-4, 16), pointZero := true }

def recordOfDrilling (d : Drilling) : Log.Record :=
  let number (x : Number.Binary64) : String := String.ofList (recordStyle.write x)
  ⟨.debug, .program,
    "Drill settings: DrillSettings \x7b spindle_speed: " ++ toString d.spindleSpeed.toNat ++
      ", feed_rate: " ++ number d.feedRate ++ ", safe_z: " ++ number d.safeHeight ++
      ", feed_z: " ++ number d.feedHeight ++ ", hole_bottom_z: " ++ number d.bottomHeight ++
      " \x7d"⟩

def recordsOfOrigin : Settings.Origin → List Log.Record
  | .named _ => []
  | .usual p => [⟨.debug, .settings, "Loading config from " ++ p.text⟩]
  | .defaults => [⟨.debug, .settings, "No config file found, using defaults"⟩]

def Arguments.outputPath (a : Arguments) : Path := a.output.getD (defaultOutput a.input)

def Arguments.strengthen (a : Arguments) (s : Settings) : Settings :=
  if a.strict then { s with output := { s.output with strict := true } } else s

/-- The run that arguments ask for. `usual` is the usual place of the settings. -/
def run (buildDate : String) (usual : Option Path) (a : Arguments) (d : Disk) : Outcome :=
  let banner := Report.banner buildDate
  let origin := Settings.origin a.settings usual d
  match Settings.ofOrigin d origin with
  | .error fault =>
    { disk := d
      report := banner
      failure := some ⟨["Failed to load settings"], .settings fault⟩
      log := recordsOfOrigin origin }
  | .ok found =>
    let s := a.strengthen found
    let output := a.outputPath
    let converted := convertFile s a.input output d
    let begun := banner ++ Report.paths a.input output ++ converted.events.flatMap Report.event
    let log := recordsOfOrigin origin ++ recordOfDrilling s.drilling ::
      records s a.input output d converted
    match converted.result with
    | .error fault =>
      { disk := converted.disk
        report := begun
        failure := some ⟨["Converting " ++ a.input.text], .conversion fault⟩
        log }
    | .ok summary =>
      { disk := converted.disk, report := begun ++ Report.success summary, log }

def Outcome.stdout (o : Outcome) (a : Arguments) : String :=
  if a.quiet then "" else Report.text o.report

def Outcome.failureText (o : Outcome) : String :=
  match o.failure with
  | none => ""
  | some f => Report.text f.report

/-- The level up to which records are written when nothing else is said. -/
def Verbosity.level : Verbosity → Log.Level
  | .quiet => .error
  | .normal => .warn
  | .verbose => .debug

def Outcome.written (o : Outcome) (a : Arguments) (description : Option Text) :
    List Log.Record :=
  o.log.filter (Log.Filter.choose description a.verbosity.level).admits

def Arguments.logLine (a : Arguments) (r : Log.Record) : String :=
  if a.logJson then r.json else r.plain (a.verbosity == .verbose)

end DrillPost.Console
