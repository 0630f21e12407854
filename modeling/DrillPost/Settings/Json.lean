import DrillPost.Json.Printer
import DrillPost.Json.Reader
import DrillPost.Settings.Overlay
import DrillPost.Warning
import DrillPost.LengthUnit

/-!
# Settings, warnings and units as JSON

* `Json.readSettings`, `Json.writeSettings`: a settings document;
* `Json.readWarning`, `Json.writeWarning`: a warning;
* `Json.readAnomaly`, `Json.readUnit` and their writers: names in quotes, or an object whose only
  key is the name and whose value is null.
-/

namespace DrillPost.Json

open Number

inductive Fault
  | malformed
  | mismatch
  | repeated (key : Text)
  | missing
  | surplus
  deriving DecidableEq, Repr

def Fault.message : Fault → String
  | malformed => "the text is not a JSON value"
  | mismatch => "a value is of the wrong kind or out of range"
  | repeated key => "the key " ++ String.ofList (quoted key) ++ " is there twice"
  | missing => "a value is missing"
  | surplus => "an array has too many elements"

/-- Members by their keys. A key must be a text, and a known one may be there only once. -/
def entriesOf (known : List Text) (members : List (Option Text × Value)) :
    Except Fault (List (Text × Value)) :=
  match members.mapM fun (k, v) => k.map fun k => (k, v) with
  | none => .error .mismatch
  | some entries =>
    match known.find? fun k => 1 < (entries.filter (·.1 == k)).length with
    | some k => .error (.repeated k)
    | none => .ok entries

/-- A section: an object, or an array with no more elements than there are names. -/
def sectionOf (known : List Text) : Value → Except Fault (Section Value)
  | .object members => (entriesOf known members).map .named
  | .array items => if known.length < items.length then .error .surplus else .ok (.listed items)
  | _ => .error .mismatch

def natural (bound : Nat) : Value → Except Fault Nat
  | .number n =>
    match n.toInt? with
    | some i => if 0 ≤ i && i < bound then .ok i.toNat else .error .mismatch
    | none => .error .mismatch
  | _ => .error .mismatch

def float : Value → Except Fault Binary64
  | .number n =>
    match n.toBinary64? with
    | some x => .ok x
    | none => .error .mismatch
  | _ => .error .mismatch

def truth : Value → Except Fault Bool
  | .boolean b => .ok b
  | _ => .error .mismatch

def text : Value → Except Fault Text
  | .string (some t) => .ok t
  | _ => .error .mismatch

/-- The readings of JSON values. Only the precision may be null. -/
def readings : Readings Value Fault where
  sectionOf := sectionOf
  natural := natural
  number := float
  boolean := truth
  precision
    | .null => .ok none
    | v => (natural UInt64.size v).map some

def document (t : Text) : Except Fault Value :=
  match parse t with
  | some v => .ok v
  | none => .error .malformed

def readSettings (t : Text) : Except Fault Settings :=
  (document t).bind fun v => (readings.overlay v).map (·.apply {})

def writeSettings (s : Settings) : Text :=
  let number (x : Binary64) : Text := numberStyle.write x
  prettyObject 0
    [("drill", prettyObject 1
      [("spindle_speed", digits s.drilling.spindleSpeed.toNat),
        ("feed_rate", number s.drilling.feedRate), ("safe_z", number s.drilling.safeHeight),
        ("feed_z", number s.drilling.feedHeight),
        ("hole_bottom_z", number s.drilling.bottomHeight)]),
      ("output", prettyObject 1
        [("coordinate_precision",
            match s.output.precision with
            | some places => digits places
            | none => "null".toList),
          ("strict", boolean s.output.strict)])]

/-- One of several names: a string, or an object with that one key and the value null. -/
def name {β : Type} (ofKey : String → Option β) (v : Value) : Except Fault β :=
  let key : Option Text :=
    match v with
    | .string k => k
    | .object [(k, .null)] => k
    | _ => none
  match key.bind fun k => ofKey (String.ofList k) with
  | some b => .ok b
  | none => .error .mismatch

def readAnomaly (t : Text) : Except Fault Anomaly := (document t).bind (name Anomaly.ofKey)

def writeAnomaly (a : Anomaly) : Text := quoted a.key.toList

def readUnit (t : Text) : Except Fault LengthUnit := (document t).bind (name LengthUnit.ofKey)

def writeUnit (u : LengthUnit) : Text := quoted u.key.toList

def warningNames : List Text := ["line_number".toList, "kind".toList, "line".toList]

/-- The warning of a value, of which no part may be missing. -/
def warning (v : Value) : Except Fault Warning := do
  let parts ← sectionOf warningNames v
  let part (place : Nat) (name : String) : Except Fault Value :=
    match parts.field? place name.toList with
    | some v => .ok v
    | none => .error .missing
  let lineNumber ← (part 0 "line_number").bind (natural UInt64.size)
  let anomaly ← (part 1 "kind").bind (name Anomaly.ofKey)
  let line ← (part 2 "line").bind text
  return { lineNumber, anomaly, line }

def readWarning (t : Text) : Except Fault Warning := (document t).bind warning

def writeWarning (w : Warning) : Text :=
  compactObject
    [("line_number", digits w.lineNumber), ("kind", writeAnomaly w.anomaly),
      ("line", quoted w.line)]

end DrillPost.Json
