import DrillPost.Json.Printer
import DrillPost.Settings.Overlay
import DrillPost.Toml.Reader

/-!
# Settings as TOML

* `Toml.readSettings`: the settings that a document gives, with the defaults for the rest;
* `Toml.writeSettings`: the document of settings.
-/

namespace DrillPost.Toml

open Number

inductive Fault
  | malformed
  | mismatch
  deriving DecidableEq, Repr

def Fault.message : Fault → String
  | malformed => "the text is not a TOML document"
  | mismatch => "a value is of the wrong kind or out of range"

/-- A section: a table, or an array, of which elements beyond the names count for nothing. A moment
is a section without any setting. -/
def sectionOf : Value → Except Fault (Section Value)
  | .table _ entries => .ok (.named entries)
  | .array items => .ok (.listed items)
  | .tables items => .ok (.listed (items.map (.table .header ·)))
  | .moment => .ok (.named [])
  | _ => .error .mismatch

def natural (bound : Nat) : Value → Except Fault Nat
  | .integer i => if 0 ≤ i && i < bound then .ok i.toNat else .error .mismatch
  | _ => .error .mismatch

def float : Value → Except Fault Binary64
  | .float x => .ok x
  | .integer i => .ok (.ofInt i)
  | _ => .error .mismatch

def truth : Value → Except Fault Bool
  | .boolean b => .ok b
  | _ => .error .mismatch

/-- The readings of TOML values. A precision that is not fixed is left out. -/
def readings : Readings Value Fault where
  sectionOf _ := sectionOf
  natural := natural
  number := float
  boolean := truth
  precision v := (natural UInt64.size v).map some

def readSettings (t : Text) : Except Fault Settings :=
  match parse t with
  | none => .error .malformed
  | some entries => (readings.overlay (.table .header entries)).map (·.apply {})

/-- Numbers have their shortest digits, no exponent, and `.0` when whole. -/
def numberStyle : Style := { pointZero := true }

def assignment (name : String) (value : Text) : Text :=
  name.toList ++ " = ".toList ++ value ++ ['\n']

/-- The document of settings. A precision that is not fixed is left out. -/
def writeSettings (s : Settings) : Text :=
  let number (name : String) (x : Binary64) : Text := assignment name (numberStyle.write x)
  "[drill]\n".toList ++
    assignment "spindle_speed" (digits s.drilling.spindleSpeed.toNat) ++
    number "feed_rate" s.drilling.feedRate ++
    number "safe_z" s.drilling.safeHeight ++
    number "feed_z" s.drilling.feedHeight ++
    number "hole_bottom_z" s.drilling.bottomHeight ++
    "\n[output]\n".toList ++
    (match s.output.precision with
      | some places => assignment "coordinate_precision" (digits places)
      | none => []) ++
    assignment "strict" (Json.boolean s.output.strict)

end DrillPost.Toml
