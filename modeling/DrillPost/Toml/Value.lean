import DrillPost.Number.Binary64

/-!
# TOML values

The values of a TOML document. A table remembers how it came about, because that decides what may be
added to it later in the document.
-/

namespace DrillPost.Toml

open Number

inductive Origin
  /-- Written in braces; nothing can be added. -/
  | inline
  /-- Named by a header. -/
  | header
  /-- Only passed on the way to a header's table; a header may still name it. -/
  | passing
  /-- Passed by a dotted key; dotted keys may add to it. -/
  | dotted
  deriving DecidableEq, Repr

inductive Value
  | string (text : Text)
  | integer (i : Int)
  | float (x : Binary64)
  | boolean (b : Bool)
  | moment
  | array (items : List Value)
  | table (origin : Origin) (entries : List (Text × Value))
  | tables (items : List (List (Text × Value)))
  deriving Repr

/-- The entries of a table, in the order of their first appearance. -/
abbrev Entries := List (Text × Value)

def Entries.replace (es : Entries) (k : Text) (v : Value) : Entries :=
  es.map fun e => if e.1 = k then (k, v) else e

end DrillPost.Toml
