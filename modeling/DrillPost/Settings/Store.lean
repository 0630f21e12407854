import DrillPost.Files.Disk
import DrillPost.Settings.Json
import DrillPost.Settings.Toml
import DrillPost.Settings.Validation
import DrillPost.Text.Utf8

/-!
# Settings on disk

Settings are kept in a file whose name says its format. They are checked whenever they are read or
written, so what is on disk and what is used is always admissible.

* `Settings.load`, `Settings.save`: one file;
* `Settings.resolve`: the file that the user names, else the one at the usual place if there is one,
  else the defaults.
-/

namespace DrillPost

inductive SettingsFault
  | load (detail : String)
  | save (detail : String)
  | invalid (key reason : String)
  | unsupported (detail : String)
  | files (fault : FileFault)
  | json (fault : Json.Fault)
  | toml (fault : Toml.Fault)
  deriving DecidableEq, Repr

namespace SettingsFault

def message : SettingsFault → String
  | load detail => "Failed to load settings: " ++ detail
  | save detail => "Failed to save settings: " ++ detail
  | invalid key reason => "Invalid setting '" ++ key ++ "': " ++ reason
  | unsupported detail => "Unsupported config format: " ++ detail
  | files fault => "I/O error: " ++ fault.message
  | json fault => "JSON error: " ++ fault.message
  | toml fault => "TOML error: " ++ fault.message

def cause : SettingsFault → Option String
  | files fault => some fault.message
  | json fault => some fault.message
  | toml fault => some fault.message
  | _ => none

def ofLoading (p : Path) (fault : FileFault) : SettingsFault :=
  .load (p.text ++ ": " ++ fault.message)

def ofSaving (p : Path) (fault : FileFault) : SettingsFault :=
  .save (p.text ++ ": " ++ fault.message)

def ofViolation (v : Violation) : SettingsFault := .invalid v.key v.reason

def ofFormat (p : Path) : SettingsFault :=
  .unsupported (p.text ++ " (config file must be .json or .toml)")

end SettingsFault

inductive Format
  | json
  | toml
  deriving DecidableEq, Repr

namespace Format

def ofPath (p : Path) : Option Format :=
  match p.extension with
  | some "json" => some .json
  | some "toml" => some .toml
  | _ => none

def read : Format → Text → Except SettingsFault Settings
  | .json, t => (Json.readSettings t).mapError .json
  | .toml, t => (Toml.readSettings t).mapError .toml

def write : Format → Settings → Text
  | .json, s => Json.writeSettings s
  | .toml, s => Toml.writeSettings s

end Format

namespace Settings

def accept (s : Settings) : Except SettingsFault Settings := s.check.mapError .ofViolation

def readText (p : Path) (d : Disk) : Except SettingsFault Text :=
  match d.read p with
  | .error fault => .error (.ofLoading p fault)
  | .ok octets =>
    match Utf8.decode octets with
    | none => .error (.ofLoading p .notText)
    | some t => .ok t

/-- The settings in a file. The file is read before its name is looked at. -/
def load (p : Path) (d : Disk) : Except SettingsFault Settings := do
  let t ← readText p d
  match Format.ofPath p with
  | none => .error (.ofFormat p)
  | some format => (← format.read t).accept

/-- The disk after the settings have been written to a file, and the fault that kept them from it,
if any. Directories that are missing are made. -/
def save (s : Settings) (p : Path) (d : Disk) : Disk × Option SettingsFault :=
  match s.check with
  | .error v => (d, some (.ofViolation v))
  | .ok _ =>
    match Format.ofPath p with
    | none => (d, some (.ofFormat p))
    | some format =>
      match d.makeParents p with
      | (d', some fault) => (d', some (.files fault))
      | (d', none) =>
        match d'.write p (Utf8.encode (format.write s)) with
        | .error fault => (d', some (.ofSaving p fault))
        | .ok d'' => (d'', none)

/-- The usual place of the settings file. `configHome` counts when it is an absolute path; else it
lies in the user's home. -/
def defaultPath (configHome home : Option Path) : Option Path :=
  let directory : Option Path :=
    match configHome.filter (·.isAbsolute) with
    | some p => some p
    | none => home.map (·.join ".config")
  directory.map fun p => (p.join "e2g").join "config.toml"

inductive Origin
  | named (path : Path)
  | usual (path : Path)
  | defaults
  deriving DecidableEq, Repr

/-- Where settings come from: the file that is named, else the one at the usual place, if there is
one. -/
def origin (named usual : Option Path) (d : Disk) : Origin :=
  match named with
  | some p => .named p
  | none =>
    match usual.filter d.isFile with
    | some p => .usual p
    | none => .defaults

def ofOrigin (d : Disk) : Origin → Except SettingsFault Settings
  | .named p | .usual p => load p d
  | .defaults => .ok {}

def resolve (named usual : Option Path) (d : Disk) : Except SettingsFault Settings :=
  ofOrigin d (origin named usual d)

end Settings

end DrillPost
