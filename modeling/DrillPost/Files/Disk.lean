import DrillPost.Files.Fault
import DrillPost.Files.Path

/-!
# The tree of files

The files and directories of a disk, as a value. Locations are rows of names from the root. A path
is followed step by step, and every step but the last must lead to a directory.

* `Disk`, `Disk.find?`: a disk, and what is at a location;
* `Disk.set`: the disk with one entry replaced (`find?_set_self`, `find?_set_of_ne`);
* `Disk.locate`: what a path leads to;
* `Disk.read`, `Disk.write`, `Disk.makeParents`: the operations of the library.
-/

namespace DrillPost

/-- A place in the tree of files: the names on the way to it from the root. -/
abbrev Location := List String

inductive Entry
  | file (octets : List UInt8)
  | directory
  deriving DecidableEq, Repr

structure Disk where
  entries : List (Location × Entry) := []
  workingDirectory : Location := []
  deriving Repr

namespace Disk

/-- What is at a location. The root is always a directory. -/
def find? (d : Disk) (l : Location) : Option Entry :=
  if l = [] then some .directory else d.entries.lookup l

def set (d : Disk) (l : Location) (e : Entry) : Disk :=
  { d with entries := (l, e) :: d.entries.filter (·.1 != l) }

theorem find?_set_self (d : Disk) {l : Location} (h : l ≠ []) (e : Entry) :
    (d.set l e).find? l = some e := by
  simp [find?, set, h]

theorem find?_set_of_ne (d : Disk) {l m : Location} (h : m ≠ l) (e : Entry) :
    (d.set l e).find? m = d.find? m := by
  have lookup_filter : ∀ xs : List (Location × Entry),
      (xs.filter (·.1 != l)).lookup m = xs.lookup m := by
    intro xs
    induction xs with
    | nil => rfl
    | cons x xs ih =>
      obtain ⟨k, v⟩ := x
      by_cases hk : k = l
      · have : (m == l) = false := by simpa using h
        simp [hk, List.lookup_cons, this, ih]
      · simp [hk, List.lookup_cons, ih]
  have hm : (m == l) = false := by simpa using h
  simp [find?, set, List.lookup_cons, hm, lookup_filter]

def stepFrom (l : Location) : Step → Location
  | .stay => l
  | .up => l.dropLast
  | .down name => l ++ [name]

/-- The location that a row of steps leads to. A step can only be taken from a directory. -/
def follow (d : Disk) (l : Location) : List Step → Except FileFault Location
  | [] => .ok l
  | s :: rest =>
    match d.find? l with
    | some .directory => follow d (stepFrom l s) rest
    | some (.file _) => .error .notDirectory
    | none => .error .notFound

def base (d : Disk) (p : Path) : Location := if p.isAbsolute then [] else d.workingDirectory

/-- The location and the entry that a path leads to. A path that ends in a slash leads to a
directory or nowhere. -/
def locate (d : Disk) (p : Path) : Except FileFault (Location × Entry) :=
  if p.text.isEmpty then .error .notFound
  else
    (d.follow (d.base p) p.steps).bind fun l =>
      match d.find? l with
      | none => .error .notFound
      | some (.file octets) =>
        if p.endsInSlash then .error .notDirectory else .ok (l, .file octets)
      | some .directory => .ok (l, .directory)

def isFile (d : Disk) (p : Path) : Bool :=
  match d.locate p with
  | .ok (_, .file _) => true
  | _ => false

def read (d : Disk) (p : Path) : Except FileFault (List UInt8) :=
  (d.locate p).bind fun
    | (_, .file octets) => .ok octets
    | (_, .directory) => .error .isDirectory

/-- Where an entry of a given path would be made: the location of the directory that is to hold it,
and the last step. A path without steps has none. -/
def site (d : Disk) (start : Location) (steps : List Step) :
    Except FileFault (Location × Option Step) :=
  (d.follow start (steps.dropLast ++ [.stay])).map fun l => (l, steps.getLast?)

/-- The disk after octets have been written to a path, which makes the file or replaces what it
held. -/
def write (d : Disk) (p : Path) (octets : List UInt8) : Except FileFault Disk :=
  if p.text.isEmpty then .error .notFound
  else
    (d.site (d.base p) p.steps).bind fun
      | (l, some (.down name)) =>
        if p.endsInSlash || d.find? (l ++ [name]) == some .directory then .error .isDirectory
        else .ok (d.set (l ++ [name]) (.file octets))
      | _ => .error .isDirectory

def makeDirectory (d : Disk) (start : Location) (steps : List Step) : Except FileFault Disk :=
  (d.site start steps).bind fun
    | (l, some (.down name)) =>
      if (d.find? (l ++ [name])).isSome then .error .alreadyExists
      else .ok (d.set (l ++ [name]) .directory)
    | _ => .error .alreadyExists

def reachesDirectory (d : Disk) (start : Location) (steps : List Step) : Bool :=
  match d.follow start (steps ++ [.stay]) with
  | .ok _ => true
  | .error _ => false

/-- The disk after a directory and those that are to hold it have been made, as far as they were
missing, and the fault that ended this, if any. The steps are given from the last to the first. -/
def makeDirectoriesFrom (d : Disk) (start : Location) : List Step → Disk × Option FileFault
  | [] => (d, none)
  | s :: above =>
    let steps := (s :: above).reverse
    let settle (d : Disk) (fault : FileFault) : Disk × Option FileFault :=
      (d, if d.reachesDirectory start steps then none else some fault)
    match d.makeDirectory start steps with
    | .ok d' => (d', none)
    | .error .notFound =>
      match makeDirectoriesFrom d start above with
      | (d', some fault) => (d', some fault)
      | (d', none) =>
        match d'.makeDirectory start steps with
        | .ok d'' => (d'', none)
        | .error fault => settle d' fault
    | .error fault => settle d fault

def makeParents (d : Disk) (p : Path) : Disk × Option FileFault :=
  d.makeDirectoriesFrom (d.base p) p.components.dropLast.reverse

def files (d : Disk) : List (Location × List UInt8) :=
  d.entries.filterMap fun
    | (l, .file octets) => some (l, octets)
    | (_, .directory) => none

/-- The files of the second disk that the first one does not hold, or holds with other octets. -/
def changes (before after : Disk) : List (Location × List UInt8) :=
  after.files.filter fun (l, octets) => before.find? l != some (.file octets)

def addFile (d : Disk) (l : Location) (e : Entry) : Disk :=
  let above := (List.range l.length).filterMap fun k =>
    let m := l.take k
    if (d.find? m).isSome then none else some (m, Entry.directory)
  if l = [] then d else { d with entries := above ++ d.entries }.set l e

end Disk

end DrillPost
