import DrillPost.Console.Run

/-!
# The program

The outer layer of the program. It looks at what the paths of the arguments lead to, lets
`Console.run` decide what is to be done, and does it.

* `survey`: the part of the disk that steps lead through;
* `main`: the program.
-/

namespace DrillPost

def releaseDay : String := "2025-01-01"

def probe (l : Location) : IO (Option Entry) := do
  try
    let octets ← IO.FS.readBinFile ("/" ++ "/".intercalate l)
    return some (.file octets.toList)
  catch
    | .noFileOrDirectory .. => return none
    | .inappropriateType .. => return some .directory
    | fault => throw fault

/-- The disk with what is found at the locations that steps lead through, as far as they are taken
from directories. -/
def survey (disk : Disk) (here : Location) : List Step → IO Disk
  | [] => return disk
  | step :: rest => do
    if disk.find? here != some .directory then return disk
    let next := Disk.stepFrom here step
    let found ← if (disk.find? next).isSome then pure none else probe next
    survey ((found.map (disk.set next)).getD disk) next rest

def startingDisk : IO Disk := do
  let directory : Path := ⟨(← IO.currentDir).toString⟩
  let home : Location := directory.steps.foldl Disk.stepFrom []
  return { ({} : Disk).addFile home .directory with workingDirectory := home }

def environmentPath (name : String) : IO (Option Path) := do
  return (← IO.getEnv name).map Path.mk

def convert (a : Console.Arguments) : IO UInt32 := do
  let configHome ← environmentPath "XDG_CONFIG_HOME"
  let usual := Settings.defaultPath configHome (← environmentPath "HOME")
  let description := (← IO.getEnv "RUST_LOG").map (·.toList)
  let paths := [a.input, a.outputPath] ++ (a.settings <|> usual).toList
  let disk ← paths.foldlM (fun d p => survey d (d.base p) p.steps) (← startingDisk)
  let outcome := Console.run releaseDay usual a disk
  for (location, octets) in disk.changes outcome.disk do
    IO.FS.writeBinFile ("/" ++ "/".intercalate location) ⟨octets.toArray⟩
  IO.eprint (Console.Report.text ((outcome.written a description).map a.logLine))
  IO.print (outcome.stdout a)
  IO.eprint outcome.failureText
  return outcome.exitCode.toUInt32

def program (arguments : List String) : IO UInt32 := do
  match Console.Arguments.read arguments with
  | .ok a => convert a
  | .error usage =>
    let text := Console.Report.text usage.report
    if usage.exitCode = 0 then IO.print text else IO.eprint text
    return usage.exitCode.toUInt32

end DrillPost

/-- The program. Its exit code is 0 when a drilling program has been written. -/
def main (arguments : List String) : IO UInt32 := DrillPost.program arguments
