import DrillPost.Excellon.Integer

/-!
# Fields of a line

A line of a drill file is a row of fields such as `T01C0.8` or `X001000Y002000`. A field is a letter
and the text up to the next delimiter. A delimiter directly after the letter does not end the
field: then, as when there is none, the rest of the line belongs to it.

* `Field.scan`: the first field of a text, and what follows it;
* `Field.all`: the fields of a text one after the other (`flatten_all`: they make up the text);
* `Field.atOffset`, `Field.pairAtOffset`: the fields from a given octet of a line on.
-/

namespace DrillPost.Excellon

def delimiters : Text :=
  ['A', 'B', 'C', 'D', 'F', 'G', 'H', 'I', 'J', 'K', 'L', 'M', 'N', 'O', 'P', 'Q', 'R', 'S', 'T',
    'X', 'Y', 'Z', ',', '(', '[']

def isDelimiter (c : Char) : Bool := delimiters.contains c

structure Field where
  letter : Char
  raw : Text
  deriving DecidableEq, Repr

namespace Field

def integer (f : Field) : Option Int := leadingInteger f.raw

def text (f : Field) : Text := f.letter :: f.raw

/-- The number of octets of a text in UTF-8. -/
def octets (t : Text) : Nat := t.foldr (fun c n => c.utf8Size + n) 0

/-- The octet just behind a field that starts at a given one. -/
def endOffset (f : Field) (offset : Nat) : Nat := offset + octets f.text

/-- The text of a field whose letter has been read, and what follows the field. -/
def cut (rest : Text) : Text × Text :=
  match rest with
  | [] => ([], [])
  | c :: _ =>
    if isDelimiter c then (rest, [])
    else (rest.takeWhile (!isDelimiter ·), rest.dropWhile (!isDelimiter ·))

theorem cut_append (rest : Text) : (cut rest).1 ++ (cut rest).2 = rest := by
  unfold cut
  split
  · rfl
  · split <;> simp [List.takeWhile_append_dropWhile]

/-- The first field of a text and what follows it. -/
def scan : Text → Option (Field × Text)
  | [] => none
  | c :: rest => some (⟨c, (cut rest).1⟩, (cut rest).2)

theorem text_append_of_scan {t rest : Text} {f : Field} (h : scan t = some (f, rest)) :
    f.text ++ rest = t := by
  cases t with
  | nil => simp [scan] at h
  | cons c r =>
    simp only [scan, Option.some.injEq, Prod.mk.injEq] at h
    obtain ⟨rfl, rfl⟩ := h
    simp [text, cut_append]

theorem length_lt_of_scan {t rest : Text} {f : Field} (h : scan t = some (f, rest)) :
    rest.length < t.length := by
  have := congrArg List.length (text_append_of_scan h)
  simp only [text, List.cons_append, List.length_cons, List.length_append] at this
  omega

def all (t : Text) : List Field :=
  match h : scan t with
  | none => []
  | some (f, rest) =>
    have := length_lt_of_scan h
    f :: all rest
termination_by t.length

theorem flatten_all (t : Text) : ((all t).map text).flatten = t := by
  fun_induction all t with
  | case1 t h =>
    cases t with
    | nil => rfl
    | cons c r => simp [scan] at h
  | case2 t f rest h _ ih => simp [ih, text_append_of_scan h]

def pair (t : Text) : Option (Field × Option Field) :=
  (scan t).map fun (f, rest) => (f, (scan rest).map (·.1))

/-- The text from a given octet on; none past the end and none inside a character. -/
def dropOctets : Nat → Text → Option Text
  | 0, t => some t
  | _ + 1, [] => none
  | n + 1, c :: t => if c.utf8Size ≤ n + 1 then dropOctets (n + 1 - c.utf8Size) t else none

/-- The field that starts at a given octet of a line, after the line's blanks at both ends have
been removed and its letters put in upper case. -/
def atOffset (line : Text) (offset : Nat) : Option Field :=
  ((dropOctets offset (Text.normalize line)).bind scan).map (·.1)

def pairAtOffset (line : Text) (offset : Nat) : Option (Field × Option Field) :=
  (dropOctets offset (Text.normalize line)).bind pair

end Field

end DrillPost.Excellon
