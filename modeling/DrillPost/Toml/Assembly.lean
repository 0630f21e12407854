import DrillPost.Toml.Value

/-!
# Tables of a document

A document names its tables in pieces: by headers, by dotted keys and in braces. No table may be
defined twice, and a table that was opened by one means cannot be extended by another.

* `Entries.put`: one key and its value in the table that is being written;
* `Entries.addSection`: the table of a header, once all its keys are known;
* `assemble`: the entries of a whole document.
-/

namespace DrillPost.Toml

namespace Entries

def place (es : Entries) (k : Text) (v : Value) : Option Entries :=
  if (es.lookup k).isSome then none else some (es ++ [(k, v)])

/-- The entries with a value below a dotted path. The path makes the tables it needs; of those that
are there it may pass through the ones that dotted keys or later headers made, and must end in
one that dotted keys made. -/
def putDotted (es : Entries) (k : Text) (v : Value) : List Text → Option Entries
  | [] => es.place k v
  | p :: ps =>
    match es.lookup p with
    | none => (putDotted [] k v ps).map fun sub => es ++ [(p, .table .dotted sub)]
    | some (.table .dotted sub) =>
      (putDotted sub k v ps).map fun sub => es.replace p (.table .dotted sub)
    | some (.table .passing sub) =>
      if ps = [] then none
      else (putDotted sub k v ps).map fun sub => es.replace p (.table .passing sub)
    | some (.tables items) =>
      match items.getLast? with
      | some last =>
        if ps = [] then none
        else
          (putDotted last k v ps).map fun sub => es.replace p (.tables (items.dropLast ++ [sub]))
      | none => none
    | some _ => none

def put (es : Entries) (path : List Text) (k : Text) (v : Value) : Option Entries :=
  es.putDotted k v path

/-- The entries with a change made to the table that a header's path leads to. Tables on the way are
made where they are missing; of several tables of one name the last is meant. -/
def within (change : Entries → Option Entries) (es : Entries) : List Text → Option Entries
  | [] => change es
  | p :: ps =>
    match es.lookup p with
    | none => (within change [] ps).map fun sub => es ++ [(p, .table .passing sub)]
    | some (.table .inline _) => none
    | some (.table origin sub) =>
      (within change sub ps).map fun sub => es.replace p (.table origin sub)
    | some (.tables items) =>
      match items.getLast? with
      | some last =>
        (within change last ps).map fun sub => es.replace p (.tables (items.dropLast ++ [sub]))
      | none => none
    | some _ => none

end Entries

/-- A key, a value, and the parts of the key on the way. -/
structure Pair where
  path : List Text
  key : Text
  value : Value

def Entries.putAll (es : Entries) (ps : List Pair) : Option Entries :=
  ps.foldlM (fun es p => es.put p.path p.key p.value) es

/-- The header of a section: one pair of brackets around its key, or two. -/
structure Header where
  isArray : Bool
  path : List Text
  key : Text

/-- The entries with a section. A header in single brackets names a table that is new or was only
passed; one in double brackets adds a table to those of its name. -/
def Entries.addSection (es : Entries) (h : Header) (pairs : List Pair) : Option Entries :=
  es.within (fun parent =>
    match h.isArray, parent.lookup h.key with
    | false, none =>
      (Entries.putAll [] pairs).map fun sub => parent ++ [(h.key, .table .header sub)]
    | false, some (.table .passing sub) =>
      (Entries.putAll sub pairs).map fun sub => parent.replace h.key (.table .header sub)
    | true, none =>
      (Entries.putAll [] pairs).map fun sub => parent ++ [(h.key, .tables [sub])]
    | true, some (.tables items) =>
      (Entries.putAll [] pairs).map fun sub => parent.replace h.key (.tables (items ++ [sub]))
    | _, _ => none) h.path

inductive Statement
  | pair (p : Pair)
  | header (h : Header)

/-- The pairs before the first header, and each header with the pairs behind it. -/
def sections (statements : List Statement) : List Pair × List (Header × List Pair) :=
  statements.foldr (fun s (pairs, rest) =>
    match s with
    | .pair p => (p :: pairs, rest)
    | .header h => ([], (h, pairs) :: rest)) ([], [])

def assemble (statements : List Statement) : Option Entries :=
  let (pairs, rest) := sections statements
  (Entries.putAll [] pairs).bind fun root =>
    rest.foldlM (fun es (h, pairs) => es.addSection h pairs) root

end DrillPost.Toml
