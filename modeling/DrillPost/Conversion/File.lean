import DrillPost.Conversion.Stream
import DrillPost.Files.Disk

/-!
# Conversion of a file

The program is written once, after the whole drill file has been converted. So a conversion that
fails leaves the disk as it was.

* `defaultOutput`: where the program goes when nothing else is said;
* `openStream`: the stream of a file (a directory can be opened, and fails at once);
* `convertOpened`: the conversion of what came of opening a file, whose reading may fail;
* `convertFile`: the conversion of one file into another.
-/

namespace DrillPost.Conversion

def defaultOutput (input : Path) : Path := input.append "-gcode.nc"

def openStream (d : Disk) (p : Path) : Except FileFault Stream :=
  (d.locate p).map fun
    | (_, .file octets) => ⟨octets, none⟩
    | (_, .directory) => ⟨[], some .isDirectory⟩

structure FileOutcome where
  disk : Disk
  events : List Event
  result : Except Fault Summary

/-- The conversion of what came of opening `input` into a program at `output`. -/
def convertOpened (s : Settings) (input output : Path) (d : Disk) :
    Except FileFault Stream → FileOutcome
  | .error fault => ⟨d, [], .error (.inputOpen input fault)⟩
  | .ok stream =>
    let converted := convertStream s input stream
    match converted.result with
    | .error fault => ⟨d, converted.events, .error fault⟩
    | .ok (gcode, summary) =>
      let malformed := summary.malformedCount
      if s.output.strict && 0 < malformed then
        ⟨d, converted.events, .error (.strictViolation malformed)⟩
      else match d.write output (Utf8.encode gcode) with
        | .error fault => ⟨d, converted.events, .error (.outputWrite output fault)⟩
        | .ok written => ⟨written, converted.events, .ok summary⟩

/-- The conversion of the file at `input` into a program at `output`. -/
def convertFile (s : Settings) (input output : Path) (d : Disk) : FileOutcome :=
  convertOpened s input output d (openStream d input)

end DrillPost.Conversion
