import DrillPost.Settings.Basic

/-!
# Settings given in part

A document need not give every setting. What it gives is an overlay, which takes the place of the
defaults; the two document formats differ only in how they come by the overlay.

* `Overlay`, `Overlay.apply`: some settings, and all settings with these replaced;
* `Section`, `Section.field?`: a section of a document, by name or by position;
* `Readings.overlay`: the overlay of a document, from the readings of its values.
-/

namespace DrillPost

open Number

structure Overlay where
  spindleSpeed : Option UInt32 := none
  feedRate : Option Binary64 := none
  safeHeight : Option Binary64 := none
  feedHeight : Option Binary64 := none
  bottomHeight : Option Binary64 := none
  /-- A document may say that there is no fixed precision. -/
  precision : Option (Option Nat) := none
  strict : Option Bool := none
  deriving DecidableEq, Repr

def Overlay.apply (o : Overlay) (s : Settings) : Settings :=
  { drilling :=
      { spindleSpeed := o.spindleSpeed.getD s.drilling.spindleSpeed
        feedRate := o.feedRate.getD s.drilling.feedRate
        safeHeight := o.safeHeight.getD s.drilling.safeHeight
        feedHeight := o.feedHeight.getD s.drilling.feedHeight
        bottomHeight := o.bottomHeight.getD s.drilling.bottomHeight }
    output :=
      { precision := o.precision.getD s.output.precision
        strict := o.strict.getD s.output.strict } }

@[simp] theorem Overlay.apply_empty (s : Settings) : ({} : Overlay).apply s = s := rfl

def sectionNames : List Text := ["drill".toList, "output".toList]

def drillingNames : List Text :=
  ["spindle_speed".toList, "feed_rate".toList, "safe_z".toList, "feed_z".toList,
    "hole_bottom_z".toList]

def outputNames : List Text := ["coordinate_precision".toList, "strict".toList]

/-- A section of a document: values with their names, or values in the order of the names. -/
inductive Section (α : Type)
  | named (entries : List (Text × α))
  | listed (values : List α)

namespace Section

variable {α : Type}

/-- The value of a field, by its name and its place. Other names count for nothing. -/
def field? (s : Section α) (place : Nat) (name : Text) : Option α :=
  match s with
  | .named entries => entries.lookup name
  | .listed values => values[place]?

end Section

structure Readings (α ε : Type) where
  sectionOf : List Text → α → Except ε (Section α)
  /-- A whole number below a bound. -/
  natural : Nat → α → Except ε Nat
  number : α → Except ε Binary64
  boolean : α → Except ε Bool
  precision : α → Except ε (Option Nat)

namespace Readings

variable {α ε : Type}

def optional {β : Type} (read : α → Except ε β) : Option α → Except ε (Option β)
  | none => .ok none
  | some v => (read v).map some

/-- The overlay that a document gives: a section of two sections. What is missing at either level is
left to the defaults. -/
def overlay (r : Readings α ε) (document : α) : Except ε Overlay := do
  let top ← r.sectionOf sectionNames document
  let empty : Section α := .named []
  let drill ← optional (r.sectionOf drillingNames) (top.field? 0 "drill".toList)
  let output ← optional (r.sectionOf outputNames) (top.field? 1 "output".toList)
  let drill := drill.getD empty
  let output := output.getD empty
  let speed ← optional (r.natural UInt32.size) (drill.field? 0 "spindle_speed".toList)
  let feedRate ← optional r.number (drill.field? 1 "feed_rate".toList)
  let safeHeight ← optional r.number (drill.field? 2 "safe_z".toList)
  let feedHeight ← optional r.number (drill.field? 3 "feed_z".toList)
  let bottomHeight ← optional r.number (drill.field? 4 "hole_bottom_z".toList)
  let precision ← optional r.precision (output.field? 0 "coordinate_precision".toList)
  let strict ← optional r.boolean (output.field? 1 "strict".toList)
  return { spindleSpeed := speed.map UInt32.ofNat, feedRate, safeHeight, feedHeight, bottomHeight,
           precision, strict }

end Readings

end DrillPost
