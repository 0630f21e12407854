import DrillPost.Log.Directive

/-!
# Log filters

A filter is a list of directives. Of the directives that apply to a record the most particular one
decides, and of those that are equally particular the last. A record to which none applies does not
pass.

* `Filter`, `Filter.admits`: filters, and what they let through;
* `Filter.parse`: the filter that a text describes;
* `Filter.choose`: that filter if there is one, else one level for everything.
-/

namespace DrillPost.Log

/-- Whether a directive is less particular than another one, or as particular: it asks for a shorter
name, or for one of the same length and for no more fields. -/
def Directive.yieldsTo (a b : Directive) : Bool :=
  a.beginning.length < b.beginning.length ||
    (a.beginning.length == b.beginning.length && (a.field.isNone || b.field.isSome))

abbrev Filter := List Directive

namespace Filter

/-- The more particular of two directives, else the later one. -/
def stronger (a b : Directive) : Directive := if a.yieldsTo b then b else a

def decisive (f : Filter) (s : Source) : Option Directive :=
  (f.filter (·.applies s)).foldl
    (fun best d => some (match best with | none => d | some b => stronger b d)) none

def admits (f : Filter) (r : Record) : Bool :=
  match (f.decisive r.source).bind (·.limit) with
  | some limit => limit.covers r.level
  | none => false

/-- The filter that a text describes: directives with commas between them. Empty parts count for
nothing. -/
def parse (t : Text) : Option Filter :=
  ((splitOn ',' t).filter (!·.isEmpty)).mapM Directive.read

/-- The filter that a description gives, if there is one that is not blank and can be read; else one
level for everything. -/
def choose (description : Option Text) (limit : Level) : Filter :=
  let given := (description.filter fun t => !(Text.trim t).isEmpty).bind parse
  given.getD [{ limit := some limit }]

end Filter

end DrillPost.Log
