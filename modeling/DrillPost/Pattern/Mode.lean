import DrillPost.Text.Letter

/-!
# Modes of a pattern

A pattern is read in a mode, which it may switch for what follows or for a group.

* `Mode`, `Mode.switch`: the modes that bear on which patterns there are;
* `areSwitches`: the letters that switch modes;
* `skip`: the text after blanks and remarks, where the mode lets them count for nothing.
-/

namespace DrillPost.Pattern

structure Mode where
  caseless : Bool := false
  /-- The pattern speaks of octets and not of characters. -/
  octets : Bool := false
  /-- Blanks and remarks between the parts count for nothing. -/
  spaced : Bool := false
  deriving DecidableEq, Repr

/-- The letters of the modes. Those without a field in `Mode` say how a match is searched for, and
are read and forgotten. -/
def modeLetters : Text := "imsuxRU".toList

/-- Whether a row of letters switches modes: each letter at most once, and at most one minus sign,
behind which modes are switched off and which has a letter behind it. -/
def areSwitches (t : Text) : Bool :=
  t.all (fun c => c == '-' || modeLetters.contains c) && t.eraseDups == t &&
    t.getLast? != some '-'

namespace Mode

def switch (m : Mode) (switches : Text) : Mode :=
  let on := switches.takeWhile (· != '-')
  let off := switches.drop on.length
  let setting (letter : Char) (old : Bool) : Bool :=
    if on.contains letter then true else if off.contains letter then false else old
  { caseless := setting 'i' m.caseless
    octets := !setting 'u' !m.octets
    spaced := setting 'x' m.spaced }

@[simp] theorem switch_nil (m : Mode) : m.switch [] = m := by
  cases m
  simp [switch]

/-- Whether a letter can stand for both of its cases, as far as that is asked of it. The cases of
letters are known for octets alone. -/
def knowsCases (m : Mode) : Bool := m.octets || !m.caseless

end Mode

/-- The text after blanks and remarks. A remark runs from a number sign to the end of the line. -/
def skipRemarks : Bool → Text → Text
  | _, [] => []
  | true, c :: r => skipRemarks (c != '\n') r
  | false, c :: r =>
    if c == '#' then skipRemarks true r
    else if Text.isBlank c then skipRemarks false r
    else c :: r

def skip (m : Mode) (t : Text) : Text := if m.spaced then skipRemarks false t else t

end DrillPost.Pattern
