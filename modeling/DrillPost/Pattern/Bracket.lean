import DrillPost.Pattern.Escape

/-!
# Sets of characters in brackets

A set lists characters, ranges, named classes and further sets, and combines such lists by
intersection, difference and symmetric difference. The reader tells whether a set is well formed and
how deep its parts are nested.

* `runSteps`: the result of reading step by step;
* `joint`: the height of parts that stand side by side;
* `Bracket`, `OpenSet.next`: sets that have not been closed, and the reading of their next part;
* `bracket`: the set at the start of a text, its height and the rest.
-/

namespace DrillPost.Pattern

/-- The result of at most so many steps, each of which gives it or goes on from another state. -/
def runSteps {σ ρ : Type} (next : σ → Option (ρ ⊕ σ)) : Nat → σ → Option ρ
  | 0, _ => none
  | fuel + 1, s =>
    match next s with
    | none => none
    | some (.inl r) => some r
    | some (.inr s) => runSteps next fuel s

/-- The height of parts that stand side by side: a single part has its own, several are a level
above the highest of them. -/
def joint : List Nat → Nat
  | [] => 0
  | [h] => h
  | hs => hs.foldl max 0 + 1

inductive SetOperation
  | intersection
  | difference
  | symmetricDifference
  deriving DecidableEq, Repr

def SetOperation.combine : SetOperation → Bool → Bool → Bool
  | intersection, a, b => a && b
  | difference, a, b => a && !b
  | symmetricDifference, a, b => a != b

structure Operand where
  height : Nat
  /-- Whether it takes in what lies beyond ASCII; it does so as a whole or not at all, as far as
  this is asked for. -/
  wide : Bool
  deriving DecidableEq, Repr

/-- Whether a set can be widened to both cases of its letters, as far as that is asked for. A set
without members of its own needs no knowledge of letters unless it is the set of all. -/
def Operand.knowsCases (m : Mode) (s : Operand) : Bool := m.knowsCases || !s.wide

structure Bracket where
  negated : Bool
  /-- The heights of the members behind the last operation. -/
  members : List Nat := []
  wide : Bool := false
  /-- What the operations before the last one give, and the last one. -/
  left : Option (Operand × SetOperation) := none
  deriving DecidableEq, Repr

namespace Bracket

def add (b : Bracket) (s : Operand) : Bracket :=
  { b with members := s.height :: b.members, wide := b.wide || s.wide }

def leaf : Operand := ⟨0, false⟩

def content (m : Mode) (b : Bracket) : Option Operand :=
  let right : Operand := ⟨joint b.members, b.wide⟩
  match b.left with
  | none => some right
  | some (left, operation) =>
    if left.knowsCases m && right.knowsCases m then
      some ⟨max left.height right.height + 1, operation.combine left.wide right.wide⟩
    else none

def operate (m : Mode) (operation : SetOperation) (b : Bracket) : Option Bracket :=
  (b.content m).map fun s => { negated := b.negated, left := some (s, operation) }

/-- The set, when its closing bracket has been read. Octets beyond ASCII are no characters, so a set
of octets may not take them in. -/
def close (m : Mode) (b : Bracket) : Option Operand :=
  (b.content m).bind fun s =>
    let wide := s.wide != b.negated
    if s.knowsCases m && !(m.octets && wide) then some ⟨s.height + 1, wide⟩ else none

end Bracket

def mayBeMember (m : Mode) (c : Char) : Bool := if m.octets then c.toNat < 0x80 else !m.caseless

/-- A character, or none for a class without a name, and the rest. -/
def member (m : Mode) : Text → Option (Option Char × Text)
  | [] => none
  | '\\' :: r =>
    match Escape.read m r with
    | some (.literal c _, rest) => some (some c, rest)
    | some (.shorthand negated, rest) =>
      if Escape.stands m (.shorthand negated) then some (none, rest) else none
    | _ => none
  | c :: r => some (some c, r)

/-- The character behind a minus sign, by which the sign is told to be one of a range. A remark
there counts for nothing up to its first word only. -/
def ahead (m : Mode) (t : Text) : Option Char :=
  if !m.spaced then t.head?
  else
    match t.dropWhile Text.isBlank with
    | '#' :: r => (r.dropWhile Text.isBlank).head?
    | r => r.head?

/-- The text after a member or a range. A range goes from a character to one that is no smaller. A
minus sign in front of the end of the set or of another minus sign is not one of a range. -/
def afterMember (m : Mode) (t : Text) : Option Text :=
  (member m t).bind fun (first, r) =>
    let single : Option Text := if first.all (mayBeMember m) then some (skip m r) else none
    match skip m r with
    | [] => none
    | '-' :: q =>
      if ahead m q = some ']' || ahead m q = some '-' then single
      else
        (member m (skip m q)).bind fun (last, rest) =>
          match first, last with
          | some a, some z =>
            if mayBeMember m a && mayBeMember m z && a ≤ z then some rest else none
          | _, _ => none
    | _ => single

def classNames : List Text :=
  ["alnum".toList, "alpha".toList, "ascii".toList, "blank".toList, "cntrl".toList, "digit".toList,
    "graph".toList, "lower".toList, "print".toList, "punct".toList, "space".toList, "upper".toList,
    "word".toList, "xdigit".toList]

/-- A named class whose first bracket has been read, and the rest. It takes in what lies beyond
ASCII exactly when it is negated. -/
def namedClass : Text → Option (Operand × Text)
  | ':' :: t =>
    let (negated, r) : Bool × Text :=
      match t with
      | '^' :: r => (true, r)
      | r => (false, r)
    let name := r.takeWhile (· != ':')
    match r.drop name.length with
    | ':' :: ']' :: rest => if classNames.contains name then some (⟨0, negated⟩, rest) else none
    | _ => none
  | _ => none

def minusSigns (m : Mode) : Nat → Text → Nat × Text
  | limit + 1, '-' :: r =>
    let (n, rest) := minusSigns m limit (skip m r)
    (n + 1, rest)
  | _, t => (0, t)

/-- The members at the start of a set that would mean something else further on: minus signs, or
else a closing bracket. -/
def firstMembers (m : Mode) (negated : Bool) (t : Text) : Option (Bracket × Text) :=
  let empty : Bracket := { negated }
  match minusSigns m t.length t with
  | (0, ']' :: r) =>
    if mayBeMember m ']' then some (empty.add Bracket.leaf, skip m r) else none
  | (0, r) => some (empty, r)
  | (n + 1, r) =>
    if mayBeMember m '-' then some ({ empty with members := List.replicate (n + 1) 0 }, r) else none

def openBracket (m : Mode) (t : Text) : Option (Bracket × Text) :=
  match skip m t with
  | '^' :: r => firstMembers m true (skip m r)
  | r => firstMembers m false r

/-- A set that has been read in part, with the sets around it that are still open, from the
innermost outwards, and what follows. -/
structure OpenSet where
  inner : Bracket
  outer : List Bracket := []
  rest : Text
  deriving DecidableEq, Repr

/-- The reading of the next part of a set. It may close the outermost set: then its height is known,
and the text after it. -/
def OpenSet.next (m : Mode) (s : OpenSet) : Option ((Nat × Text) ⊕ OpenSet) :=
  match skip m s.rest with
  | [] => none
  | ']' :: r =>
    (s.inner.close m).map fun closed =>
      match s.outer with
      | [] => .inl (closed.height, r)
      | o :: os => .inr ⟨o.add closed, os, r⟩
  | '[' :: r =>
    match namedClass r with
    | some (named, rest) =>
      if m.knowsCases then some (.inr ⟨s.inner.add named, s.outer, rest⟩) else none
    | none => (openBracket m r).map fun (inner, rest) => .inr ⟨inner, s.inner :: s.outer, rest⟩
  | '&' :: '&' :: r => (s.inner.operate m .intersection).map fun b => .inr ⟨b, s.outer, r⟩
  | '-' :: '-' :: r => (s.inner.operate m .difference).map fun b => .inr ⟨b, s.outer, r⟩
  | '~' :: '~' :: r => (s.inner.operate m .symmetricDifference).map fun b => .inr ⟨b, s.outer, r⟩
  | r => (afterMember m r).map fun rest => .inr ⟨s.inner.add Bracket.leaf, s.outer, rest⟩

def bracket (m : Mode) (t : Text) : Option (Nat × Text) :=
  (openBracket m t).bind fun (inner, rest) =>
    runSteps (OpenSet.next m) (rest.length + 1) { inner, rest }

end DrillPost.Pattern
