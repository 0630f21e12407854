import DrillPost.Log.Record
import DrillPost.Number.Decimal
import DrillPost.Pattern.Reading
import DrillPost.Text.Pieces
import DrillPost.Text.Utf8

/-!
# Directives of a log filter

A directive sets a level for some records. It may ask for the start of the name of their source, for
a span around them, and for a field of theirs, which it may put to a test. Its forms are `LEVEL`,
`NAME`, `NAME=LEVEL` and `NAME[SPAN{FIELD=TEST}]=LEVEL`; of the last one any piece may be missing.

* `Directive`, `Directive.applies`: directives, and the records that they are about;
* `Layout`: the places of the pieces of a directive;
* `Directive.read`: the directive that a text describes.
-/

namespace DrillPost.Log

structure FieldCondition where
  name : Text
  tested : Bool := false
  deriving DecidableEq, Repr

structure Directive where
  beginning : Text := []
  /-- Whether a span around the record is asked for. -/
  inSpan : Bool := false
  field : Option FieldCondition := none
  /-- The level. Without one nothing passes. -/
  limit : Option Level
  deriving DecidableEq, Repr

def messageField : Text := "message".toList

/-- Whether the records meet a condition on their fields. Tests are made on the fields of spans
only, never on those of records. -/
def FieldCondition.holds (c : FieldCondition) : Bool := c.name == messageField && !c.tested

/-- Whether a directive is about the records of a source. No record stands in a span. -/
def Directive.applies (d : Directive) (s : Source) : Bool :=
  !d.inSpan && d.beginning.isPrefixOf s.name.toList && d.field.all FieldCondition.holds

/-! ## Levels -/

def levelNames : List (Text × Option Level) :=
  [("error".toList, some .error), ("warn".toList, some .warn), ("info".toList, some .info),
    ("debug".toList, some .debug), ("trace".toList, some .trace), ("off".toList, none)]

def levelNumbers : List (Option Level) :=
  [none, some .error, some .warn, some .info, some .debug, some .trace]

/-- The level with a given name, in letters of either case, or with a given number. -/
def levelOf (t : Text) : Option (Option Level) :=
  let number := match t with
    | '+' :: r => r
    | r => r
  if !number.isEmpty && number.all Number.isDigit then levelNumbers[Number.digitsValue number]?
  else levelNames.lookup (t.map Char.toLower)

/-- The level behind the sign of equality; nothing there stands for everything. -/
def levelAfter (t : Text) : Option (Option Level) :=
  if t.isEmpty then some (some .trace) else levelOf t

/-! ## Reading -/

/-- Whether a directive may start with a character, if not with a bracket. -/
def startsDirective (c : Char) : Bool := c == '-' || c == ':' || c == '_' || Text.isAlphanumeric c

def isTest (t : Text) : Bool := Number.isNumber t || Pattern.isPattern t

/-- A condition on a field: a name, and a test behind a sign of equality, which ends at the next
such sign. -/
def FieldCondition.read (t : Text) : Option FieldCondition :=
  match splitOn '=' t with
  | name :: test :: _ => if isTest test then some ⟨name, true⟩ else none
  | _ => some ⟨t, false⟩

structure Extent where
  start : Nat
  length : Nat
  deriving DecidableEq, Repr

namespace Extent

def ofText (start : Nat) (t : Text) : Extent := ⟨start, (Utf8.encode t).length⟩

def stop (e : Extent) : Nat := e.start + e.length

/-- The part of a text on a stretch, unless it begins or ends inside a character. -/
def cut (e : Extent) (t : Text) : Option Text :=
  Utf8.decode (((Utf8.encode t).drop e.start).take e.length)

def cutFrom (start : Nat) (t : Text) : Option Text := Utf8.decode ((Utf8.encode t).drop start)

end Extent

/-- Where the pieces of a directive lie that has brackets or a sign of equality. -/
structure Layout where
  name : Extent
  span : Option Extent := none
  field : Option Extent := none
  /-- Where the level starts, behind a sign of equality. -/
  level : Option Nat := none
  deriving DecidableEq, Repr

namespace Layout

def ending (l : Layout) (start : Nat) : Text → Option Layout
  | [] => some l
  | '=' :: _ => some { l with level := some (start + 1) }
  | _ => none

def brackets (l : Layout) (start : Nat) (t : Text) : Option Layout :=
  let spanText := t.takeWhile fun c => c != ']' && c != '\x7b'
  let span := Extent.ofText start spanText
  match t.drop spanText.length with
  | ']' :: r => { l with span := some span }.ending (span.stop + 1) r
  | _ :: r =>
    let fieldText := r.takeWhile (· != '\x7d')
    let field := Extent.ofText (span.stop + 1) fieldText
    match r.drop fieldText.length with
    | _ :: ']' :: rest =>
      if fieldText.isEmpty then none
      else
        { l with
          span := if spanText.isEmpty then none else some span
          field := some field }.ending (field.stop + 2) rest
    | _ => none
  | [] => none

/-- The pieces of a directive with no blanks at its ends, where it has a name of a given length. -/
def ofText (nameLength : Nat) (t : Text) : Option Layout :=
  let name := Extent.ofText 0 (t.take nameLength)
  match t.drop nameLength with
  | '[' :: r => { name : Layout }.brackets (name.stop + 1) r
  | r => { name : Layout }.ending name.stop r

end Layout

def Directive.ofWord (t : Text) : Directive :=
  match levelOf t with
  | some limit => { limit }
  | none => { beginning := t, limit := some .trace }

def Directive.ofLayout (t : Text) (l : Layout) : Option Directive := do
  let beginning ← l.name.cut t
  let span ← l.span.mapM fun e => e.cut t
  let field ← l.field.mapM fun e => (e.cut t).bind FieldCondition.read
  let limit ←
    match l.level with
    | some start => (Extent.cutFrom start t).bind levelAfter
    | none => some (some .trace)
  return { beginning, inSpan := span.isSome, field, limit }

/-- The directive that a text describes. Blanks at its ends are left out when it is taken to pieces;
but the pieces are then cut out of the whole text at the places where they lie without the blanks,
and the last one is all that follows. So a level with a blank behind it is none, and blanks in front
move all pieces. -/
def Directive.read (t : Text) : Option Directive :=
  let trimmed := Text.trim t
  let name := trimmed.takeWhile fun c => c != '=' && c != '['
  if !(trimmed.head?.any fun c => c == '[' || startsDirective c) then none
  else if name = trimmed then some (Directive.ofWord t)
  else (Layout.ofText name.length trimmed).bind (Directive.ofLayout t)

end DrillPost.Log
