import DrillPost.Files.Path
import DrillPost.Log.Record

/-!
# Arguments of the command line

Arguments are read from left to right. A flag or an option is known by its long name or by its
letter; letters may stand together behind one dash, and the value of an option may follow in the
same argument or in the next. What a value belongs to is settled at the next known argument or at
the end, so a fault in it can be forestalled by an argument that is not known.

* `Arguments`: what the program is asked to do;
* `Usage`: why the arguments are not accepted;
* `Arguments.read`: the reading of the arguments.
-/

namespace DrillPost.Console

inductive Verbosity
  | quiet
  | normal
  | verbose
  deriving DecidableEq, Repr

structure Arguments where
  input : Path
  output : Option Path := none
  settings : Option Path := none
  strict : Bool := false
  verbose : Bool := false
  quiet : Bool := false
  logJson : Bool := false
  deriving DecidableEq, Repr

def Arguments.verbosity (a : Arguments) : Verbosity :=
  if a.quiet then .quiet else if a.verbose then .verbose else .normal

/-- Why the arguments are not accepted. Asking for help or for the version is no fault, but ends the
program too. -/
inductive Usage
  | help
  | version
  | unknownArgument
  /-- A value is missing or empty. -/
  | invalidValue
  | tooManyValues
  /-- Two arguments exclude each other, or one is there twice. -/
  | argumentConflict
  | missingArgument
  deriving DecidableEq, Repr

def Usage.exitCode : Usage → Nat
  | help | version => 0
  | _ => 2

inductive Flag
  | strict
  | verbose
  | quiet
  | logJson
  | help
  | version
  deriving DecidableEq, Repr

inductive Slot
  | input
  | output
  | settings
  deriving DecidableEq, Repr

inductive Known
  | flag (f : Flag)
  | option (s : Slot)
  deriving DecidableEq, Repr

def longNames : List (String × Known) :=
  [("output", .option .output), ("config", .option .settings), ("strict", .flag .strict),
    ("verbose", .flag .verbose), ("quiet", .flag .quiet), ("log-json", .flag .logJson),
    ("help", .flag .help), ("version", .flag .version)]

def letters : List (Char × Known) :=
  [('o', .option .output), ('c', .option .settings), ('v', .flag .verbose), ('q', .flag .quiet),
    ('h', .flag .help), ('V', .flag .version)]

structure Reading where
  flags : List Flag := []
  values : List (Slot × String) := []
  /-- A value that has not been settled yet, or an option that still waits for one. -/
  pending : Option (Slot × Option String) := none
  /-- Whether everything that follows is taken for what it is. -/
  escaped : Bool := false
  deriving Repr

namespace Reading

/-- The value of an argument is settled: it must be the only one, and not be empty. -/
def settleValue (r : Reading) (s : Slot) : Option String → Except Usage Reading
  | none => .error .invalidValue
  | some v =>
    if (r.values.lookup s).isSome then .error .argumentConflict
    else if v.isEmpty then .error .invalidValue
    else .ok { r with values := r.values ++ [(s, v)] }

def settle (r : Reading) : Except Usage Reading :=
  match r.pending with
  | none => .ok r
  | some (s, v) => { r with pending := none }.settleValue s v

def addFlag (r : Reading) (f : Flag) : Except Usage Reading :=
  r.settle.bind fun r =>
    match f with
    | .help => .error .help
    | .version => .error .version
    | f =>
      if r.flags.contains f then .error .argumentConflict
      else .ok { r with flags := r.flags ++ [f] }

def addOption (r : Reading) (s : Slot) (attached : Option String) : Except Usage Reading :=
  r.settle.bind fun r =>
    match attached with
    | some v => r.settleValue s (some v)
    | none => .ok { r with pending := some (s, none) }

/-- An argument that belongs to no option has been read: the input, of which there is one. -/
def addInput (r : Reading) (v : String) : Except Usage Reading :=
  let waiting := r.pending.any fun p => p.1 == .input
  if waiting || (r.values.lookup .input).isSome then .error .unknownArgument
  else r.settle.map fun r => { r with pending := some (.input, some v) }

def addLong (r : Reading) (t : Text) : Except Usage Reading :=
  let name := t.takeWhile (· != '=')
  let value : Option String :=
    match t.drop name.length with
    | _ :: v => some (String.ofList v)
    | [] => none
  match longNames.lookup (String.ofList name) with
  | none => .error .unknownArgument
  | some (.option s) => r.addOption s value
  | some (.flag f) => if value.isSome then .error .tooManyValues else r.addFlag f

/-- Letters behind one dash have been read. What follows the letter of an option is its value, with
or without the sign of equality. -/
def addLetters (r : Reading) : Text → Except Usage Reading
  | [] => .ok r
  | c :: rest =>
    match letters.lookup c with
    | none => .error .unknownArgument
    | some (.flag f) => (r.addFlag f).bind fun r => r.addLetters rest
    | some (.option s) =>
      match rest with
      | [] => r.addOption s none
      | '=' :: v => r.addOption s (some (String.ofList v))
      | v => r.addOption s (some (String.ofList v))

/-- An argument that is no option has been read: the value an option waits for, or the input. -/
def addPlain (r : Reading) (v : String) : Except Usage Reading :=
  match r.escaped, r.pending with
  | false, some (s, none) => .ok { r with pending := some (s, some v) }
  | _, _ => r.addInput v

def next (r : Reading) (argument : String) : Except Usage Reading :=
  if r.escaped then r.addPlain argument
  else match argument.toList with
    | ['-', '-'] => .ok { r with escaped := true }
    | '-' :: '-' :: t => r.addLong t
    | '-' :: c :: t => r.addLetters (c :: t)
    | _ => r.addPlain argument

def finish (r : Reading) : Except Usage Arguments :=
  r.settle.bind fun r =>
    let has (f : Flag) : Bool := r.flags.contains f
    let path (s : Slot) : Option Path := (r.values.lookup s).map Path.mk
    if has .verbose && has .quiet then .error .argumentConflict
    else match path .input with
      | none => .error .missingArgument
      | some input =>
        .ok { input, output := path .output, settings := path .settings, strict := has .strict,
              verbose := has .verbose, quiet := has .quiet, logJson := has .logJson }

end Reading

def Arguments.read (arguments : List String) : Except Usage Arguments :=
  (arguments.foldlM Reading.next {}).bind Reading.finish

end DrillPost.Console
