import DrillPost.Pattern.Bracket

/-!
# Reading of patterns

A regular expression, as far as it is to be told whether a text is one. The reader walks over the
text and keeps the groups that are still open, each with the heights of what has been read of it.

* `Item`, `Sequence`: the parts of a pattern that stand one after the other;
* `Progress`, `step`, `Progress.next`: what has been read, and the reading of the next part;
* `isPattern`: whether a text is a pattern.

A text with a closing brace is never asked about, so no count of repetitions is ever complete and
an opening brace outside of brackets makes a text no pattern.
-/

namespace DrillPost.Pattern

structure Item where
  height : Nat
  /-- Whether it may be repeated; a switch of modes may not. -/
  repeatable : Bool := true
  deriving DecidableEq, Repr

structure Sequence where
  /-- The items behind the last bar, the last one first. -/
  items : List Item := []
  alternatives : List Nat := []
  deriving DecidableEq, Repr

namespace Sequence

def push (s : Sequence) (i : Item) : Sequence := { s with items := i :: s.items }

def bar (s : Sequence) : Sequence :=
  { alternatives := joint (s.items.map (·.height)) :: s.alternatives }

def height (s : Sequence) : Nat := joint s.bar.alternatives

def repeatLast (s : Sequence) : Option Sequence :=
  match s.items with
  | ⟨h, true⟩ :: is => some { s with items := ⟨h + 1, true⟩ :: is }
  | _ => none

end Sequence

structure Progress where
  mode : Mode := {}
  inner : Sequence := {}
  /-- What stands before the groups that are open, from the innermost outwards, and the mode to
  which each of them returns. -/
  outer : List (Mode × Sequence) := []
  names : List Text := []
  deriving DecidableEq, Repr

namespace Progress

def push (p : Progress) (height : Nat) : Progress :=
  { p with inner := p.inner.push ⟨height, true⟩ }

def openGroup (p : Progress) (mode : Mode) : Progress :=
  { p with mode, inner := {}, outer := (p.mode, p.inner) :: p.outer }

def closeGroup (p : Progress) : Option Progress :=
  match p.outer with
  | [] => none
  | (mode, before) :: outer =>
    some { p with mode, inner := before.push ⟨p.inner.height + 1, true⟩, outer }

end Progress

def lookMarks : List Text := ["?=".toList, "?!".toList, "?<=".toList, "?<!".toList]

def isGroupName : Text → Bool
  | [] => false
  | c :: r =>
    (c == '_' || Text.isAlphabetic c) &&
      r.all fun c => "_.[]".toList.contains c || Text.isAlphanumeric c

def namedGroup (p : Progress) (t : Text) : Option (Progress × Text) :=
  let name := t.takeWhile (· != '>')
  match t.drop name.length with
  | '>' :: rest =>
    if isGroupName name && !p.names.contains name then
      some ({ p.openGroup p.mode with names := name :: p.names }, rest)
    else none
  | _ => none

/-- Switches of modes, for a group or for all that follows up to the end of the group at hand. -/
def switches (p : Progress) (t : Text) : Option (Progress × Text) :=
  let letters := t.takeWhile fun c => c != ':' && c != ')'
  if !areSwitches letters then none
  else
    let mode := p.mode.switch letters
    match t.drop letters.length with
    | ':' :: rest => some (p.openGroup mode, rest)
    | ')' :: rest =>
      if letters.isEmpty then none
      else some ({ p with mode, inner := p.inner.push ⟨0, false⟩ }, rest)
    | _ => none

def group (p : Progress) (t : Text) : Option (Progress × Text) :=
  let t := skip p.mode t
  if lookMarks.any (·.isPrefixOf t) then none
  else
    match t with
    | '?' :: 'P' :: '<' :: r => namedGroup p r
    | '?' :: '<' :: r => namedGroup p r
    | '?' :: r => switches p r
    | r => some (p.openGroup p.mode, r)

def step (p : Progress) (c : Char) (t : Text) : Option (Progress × Text) :=
  match c with
  | '(' => group p t
  | ')' => p.closeGroup.map fun p => (p, t)
  | '|' => some ({ p with inner := p.inner.bar }, t)
  | '[' => (bracket p.mode t).map fun (height, rest) => (p.push height, rest)
  | '?' | '*' | '+' =>
    p.inner.repeatLast.map fun inner =>
      ({ p with inner }, if t.head? = some '?' then t.tail else t)
  | '{' => none
  | '\\' =>
    (Escape.read p.mode t).bind fun (e, rest) =>
      if e.stands p.mode then some (p.push 0, rest) else none
  | '.' => if p.mode.octets then none else some (p.push 0, t)
  | '^' | '$' => some (p.push 0, t)
  | _ => if p.mode.knowsCases then some (p.push 0, t) else none

/-- The reading of the next part of a text; at its end the progress is complete. -/
def Progress.next : Progress × Text → Option (Progress ⊕ (Progress × Text))
  | (p, t) =>
    match skip p.mode t with
    | [] => some (.inl p)
    | c :: r => (step p c r).map .inr

def heightLimit : Nat := 250

/-- Whether a text is a pattern: it can be read to its end, no group is left open, and its parts are
not nested too deep. -/
def isPattern (t : Text) : Bool :=
  match runSteps Progress.next (t.length + 1) ({}, t) with
  | some p => p.outer.isEmpty && p.inner.height ≤ heightLimit
  | none => false

end DrillPost.Pattern
