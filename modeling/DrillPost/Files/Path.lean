import DrillPost.Text.Pieces

/-!
# Paths

A path is a text; what it means is a row of steps through the tree of files. Empty names between
slashes count for nothing.

* `Path.steps`: the steps of a path, from the root or from the working directory;
* `Path.components`: the steps without those that stay in place, which is how a path is taken apart;
* `Path.fileName`, `Path.extension`, `Path.parent`: the parts of a path;
* `Path.join`: a path below another.
-/

namespace DrillPost

structure Path where
  text : String
  deriving DecidableEq, Repr

inductive Step
  | stay
  | up
  | down (name : String)
  deriving DecidableEq, Repr

namespace Path

def isAbsolute (p : Path) : Bool := p.text.toList.head? == some '/'

/-- Whether the path ends in a slash, and so names a directory. -/
def endsInSlash (p : Path) : Bool := p.text.toList.getLast? == some '/'

def stepOf (name : Text) : Step :=
  if name = ['.'] then .stay else if name = ['.', '.'] then .up else .down (String.ofList name)

def steps (p : Path) : List Step :=
  ((splitOn '/' p.text.toList).filter (!·.isEmpty)).map stepOf

/-- The steps that lead somewhere else. -/
def components (p : Path) : List Step := p.steps.filter (· != .stay)

def fileName (p : Path) : Option String :=
  match p.components.getLast? with
  | some (.down name) => some name
  | _ => none

/-- What follows the last point of the name at the end of a path. A point at the start of the name
does not count. -/
def extension (p : Path) : Option String :=
  p.fileName.bind fun name =>
    match splitOn '.' name.toList with
    | [] | [_] | [[], _] => none
    | parts => (parts.getLast?).map String.ofList

/-- The path of an entry of a directory: the two texts with one slash between them. -/
def join (p : Path) (name : String) : Path :=
  ⟨if p.text.isEmpty || p.endsInSlash then p.text ++ name else p.text ++ "/" ++ name⟩

def append (p : Path) (tail : String) : Path := ⟨p.text ++ tail⟩

end Path

end DrillPost
