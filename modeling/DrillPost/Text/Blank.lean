/-!
# White space

The characters with the Unicode property `White_Space`, and the removal of such characters at the
two ends of a text. Texts are lists of characters throughout the library.

* `isBlank`: the property, as a table of code points;
* `trimLeft`, `trim`: the text without blanks at its start, and at both ends.
-/

namespace DrillPost

/-- A text, as the list of its characters. -/
abbrev Text := List Char

namespace Text

/-- The Unicode property `White_Space`. -/
def isBlank (c : Char) : Bool :=
  let n := c.toNat
  (0x09 ≤ n && n ≤ 0x0D) || n == 0x20 || n == 0x85 || n == 0xA0 || n == 0x1680 ||
    (0x2000 ≤ n && n ≤ 0x200A) || n == 0x2028 || n == 0x2029 || n == 0x202F || n == 0x205F ||
    n == 0x3000

def trimLeft (t : Text) : Text := t.dropWhile isBlank

def trimRight (t : Text) : Text := (trimLeft t.reverse).reverse

def trim (t : Text) : Text := trimRight (trimLeft t)

@[simp] theorem trimLeft_nil : trimLeft [] = [] := rfl

@[simp] theorem trim_nil : trim [] = [] := rfl

/-- Letters of the ASCII alphabet in upper case, all else unchanged. -/
def upper (t : Text) : Text := t.map Char.toUpper

/-- The text as the fields of a line are read from it: trimmed, and its ASCII letters in upper
case. -/
def normalize (t : Text) : Text := upper (trim t)

end Text

end DrillPost
