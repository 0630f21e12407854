import DrillPost.Conversion.Fault
import DrillPost.Conversion.Run
import DrillPost.Text.Utf8

/-!
# Conversion of a stream

A stream gives octets and then ends or fails. Its lines are cut at line feeds and decoded one by
one, with a replacement character for each fault. When the stream fails, the lines that were
complete by then have been converted, and what is left over is not looked at.
-/

namespace DrillPost.Conversion

/-- Octets, and the fault after them, if there is one. -/
structure Stream where
  octets : List UInt8
  fault : Option FileFault := none
  deriving DecidableEq, Repr

namespace Stream

/-- The octets of a line without the line feed and the carriage return at its end, as far as these
are there. -/
def withoutLineEnd (octets : List UInt8) : List UInt8 := dropFinal 0x0D (dropFinal 0x0A octets)

def linesOf (octets : List UInt8) : List Text :=
  (pieces 0x0A octets).map fun line => Utf8.decodeLossy (withoutLineEnd line)

def lines (s : Stream) : List Text :=
  match s.fault with
  | none => linesOf s.octets
  | some _ => linesOf (closedPart 0x0A s.octets)

end Stream

/-- The conversion of a stream: what a listener hears, and the program with its summary or the
fault. -/
structure Outcome where
  events : List Event
  result : Except Fault (Text × Summary)

/-- The conversion of a stream. The path is only named in the fault. Whoever reads the stream counts
its lines too, one by one as they are converted, so the number in the fault is the one that the
conversion has. -/
def convertStream (s : Settings) (path : Path) (input : Stream) : Outcome :=
  let r := convertLines s input.lines
  { events := r.events
    result :=
      match input.fault with
      | none => .ok (r.text s.output {}, r.progress.summary)
      | some fault => .error (.inputRead path r.progress.tally.linesRead fault) }

end DrillPost.Conversion
