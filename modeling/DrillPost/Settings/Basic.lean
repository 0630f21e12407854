import DrillPost.Number.Decimal

/-!
# Settings

What a user can choose: how holes are drilled, and how the program is written. Heights are in the
unit that the drill file selects.

* `Drilling`, `Output`, `Settings`: the settings and their defaults;
* `Settings.agrees`: equality of settings, where numbers are compared by value.
-/

namespace DrillPost

open Number

structure Drilling where
  /-- Turns of the spindle in a minute. -/
  spindleSpeed : UInt32 := 10000
  /-- Units of length in a minute. -/
  feedRate : Binary64 := .ofDecimal false ⟨10, 0⟩
  /-- The height of safe travel before the first hole of a tool. -/
  safeHeight : Binary64 := .ofDecimal false ⟨6, -1⟩
  /-- The height from which the drill is fed, and to which it is drawn back. -/
  feedHeight : Binary64 := .ofDecimal false ⟨2, -1⟩
  /-- The height of the bottom of every hole. -/
  bottomHeight : Binary64 := .ofDecimal true ⟨725, -4⟩
  deriving DecidableEq, Repr

structure Output where
  /-- The number of digits after the point of coordinates and heights; without it they are the
  shortest that read back. -/
  precision : Option Nat := none
  strict : Bool := false
  deriving DecidableEq, Repr

structure Settings where
  drilling : Drilling := {}
  output : Output := {}
  deriving DecidableEq, Repr

namespace Settings

/-- Whether two settings are the same up to the sign of zeros. Settings with `nan` are not the same
as themselves. -/
def agrees (a b : Settings) : Bool :=
  a.drilling.spindleSpeed == b.drilling.spindleSpeed &&
    a.drilling.feedRate.agrees b.drilling.feedRate &&
    a.drilling.safeHeight.agrees b.drilling.safeHeight &&
    a.drilling.feedHeight.agrees b.drilling.feedHeight &&
    a.drilling.bottomHeight.agrees b.drilling.bottomHeight &&
    a.output == b.output

end Settings

end DrillPost
