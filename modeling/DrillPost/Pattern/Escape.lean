import DrillPost.Json.Reader
import DrillPost.Pattern.Mode

/-!
# Escapes in a pattern

What may stand behind a backslash.

* `Escape`: the meanings of an escape;
* `Escape.read`: the escape at the start of a text, and the rest.
-/

namespace DrillPost.Pattern

inductive Escape
  /-- A character. An octet is one that is given by two digits. -/
  | literal (c : Char) (octet : Bool)
  /-- The digits, the blanks or the characters of words, or all others. -/
  | shorthand (negated : Bool)
  | wordEdge
  | textEdge
  deriving DecidableEq, Repr

namespace Escape

/-- The number that so many hexadecimal digits write after a number already read, and the rest. -/
def hexDigits (m : Mode) : Nat → Nat → Text → Option (Nat × Text)
  | 0, n, t => some (n, t)
  | count + 1, n, t =>
    match skip m t with
    | [] => none
    | c :: r => (Json.hexValue c).bind fun digit => hexDigits m count (16 * n + digit) r

/-- The character whose code point is given by so many digits, and the rest. -/
def numbered (m : Mode) (count : Nat) (t : Text) : Option (Escape × Text) :=
  (hexDigits m count 0 t).bind fun (n, r) =>
    (Text.scalar n).map fun c => (.literal c (count == 2), skip m r)

def controls : List (Char × Char) :=
  [('a', '\x07'), ('f', '\x0c'), ('n', '\n'), ('r', '\r'), ('t', '\t'), ('v', '\x0b')]

/-- The escape whose backslash has been read, and the rest. Digits and all other letters have no
meaning behind a backslash, nor have the characters beyond ASCII. -/
def read (m : Mode) : Text → Option (Escape × Text)
  | [] => none
  | 'x' :: r => numbered m 2 r
  | 'u' :: r => numbered m 4 r
  | 'U' :: r => numbered m 8 r
  | c :: r =>
    if "dsw".toList.contains c then some (.shorthand false, r)
    else if "DSW".toList.contains c then some (.shorthand true, r)
    else if "bB<>".toList.contains c then some (.wordEdge, r)
    else if "Az".toList.contains c then some (.textEdge, r)
    else if c.toNat < 0x80 && !c.isAlphanum then some (.literal c false, r)
    else (controls.lookup c).map fun control => (.literal control false, r)

/-- Whether an escape may stand outside of brackets. Octets beyond ASCII are no characters; digits,
blanks, words and their edges are known for octets alone, and all others of them would take in
octets beyond ASCII. -/
def stands (m : Mode) : Escape → Bool
  | literal c octet => m.knowsCases && !(m.octets && octet && 0x80 ≤ c.toNat)
  | shorthand negated => m.octets && !negated
  | wordEdge => m.octets
  | textEdge => true

end Escape

end DrillPost.Pattern
