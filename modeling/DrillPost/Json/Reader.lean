import DrillPost.Json.Value

/-!
# Reading JSON

A reader for the grammar of RFC 8259, and nothing besides: no comments, no comma after the last
element, no byte order mark, nothing after the value.

* `string`, `numeral`: the lexical parts;
* `value`, `elements`, `members`: the grammar, on fuel that every step spends;
* `parse`: the value of a whole text.
-/

namespace DrillPost.Json

open Number

def isSpace (c : Char) : Bool := c == ' ' || c == '\t' || c == '\n' || c == '\r'

def skip (t : Text) : Text := t.dropWhile isSpace

/-- A part of a string: a character, or the 16 bits of an escape. -/
inductive Unit16
  | char (c : Char)
  | code (n : Nat)
  deriving DecidableEq, Repr

def hexValue (c : Char) : Option Nat :=
  if c.isDigit then some (c.toNat - '0'.toNat)
  else if 'a' ≤ c && c ≤ 'f' then some (c.toNat - 'a'.toNat + 10)
  else if 'A' ≤ c && c ≤ 'F' then some (c.toNat - 'A'.toNat + 10)
  else none

def hex4 (a b c d : Char) : Option Nat :=
  (hexValue a).bind fun a => (hexValue b).bind fun b => (hexValue c).bind fun c =>
    (hexValue d).map fun d => ((a * 16 + b) * 16 + c) * 16 + d

def shortEscape : Char → Option Char
  | '"' => some '"'
  | '\\' => some '\\'
  | '/' => some '/'
  | 'b' => some '\x08'
  | 'f' => some '\x0c'
  | 'n' => some '\n'
  | 'r' => some '\r'
  | 't' => some '\t'
  | _ => none

/-- The parts of a string whose opening quote has been read, and what follows the closing one. -/
def stringParts : Text → Option (List Unit16 × Text)
  | [] => none
  | '"' :: r => some ([], r)
  | '\\' :: 'u' :: a :: b :: c :: d :: r =>
    (hex4 a b c d).bind fun n => (stringParts r).map fun (us, rest) => (.code n :: us, rest)
  | '\\' :: c :: r =>
    (shortEscape c).bind fun e => (stringParts r).map fun (us, rest) => (.char e :: us, rest)
  | c :: r =>
    if c = '\\' || c.toNat < 0x20 then none
    else (stringParts r).map fun (us, rest) => (.char c :: us, rest)

/-- Whether 16 bits are the first half of a surrogate pair. -/
def isHigh (n : Nat) : Bool := 0xD800 ≤ n && n ≤ 0xDBFF

def isLow (n : Nat) : Bool := 0xDC00 ≤ n && n ≤ 0xDFFF

/-- The text of the parts of a string; none when half of a surrogate pair stands alone. -/
def decodeParts : List Unit16 → Option Text
  | [] => some []
  | .char c :: us => (decodeParts us).map (c :: ·)
  | .code n :: .code m :: us =>
    if isHigh n then
      if isLow m then
        (decodeParts us).map
          (Char.ofNat (0x10000 + (n - 0xD800) * 0x400 + (m - 0xDC00)) :: ·)
      else none
    else if isLow n then none
    else (decodeParts (.code m :: us)).map (Char.ofNat n :: ·)
  | .code n :: us =>
    if isHigh n || isLow n then none else (decodeParts us).map (Char.ofNat n :: ·)

def string (t : Text) : Option (Option Text × Text) :=
  (stringParts t).map fun (us, rest) => (decodeParts us, rest)

def digits1 (t : Text) : Option (Text × Text) :=
  match Decimal.spanDigits t with
  | ([], _) => none
  | (ds, rest) => some (ds, rest)

/-- The digits before the point: a single zero, or digits of which the first is none. -/
def wholeDigits : Text → Option (Text × Text)
  | '0' :: r =>
    match r with
    | c :: _ => if isDigit c then none else some (['0'], r)
    | [] => some (['0'], r)
  | t => digits1 t

def fractionDigits : Text → Option (Option Text × Text)
  | '.' :: r => (digits1 r).map fun (ds, rest) => (some ds, rest)
  | t => some (none, t)

def exponentPart : Text → Option (Option (Bool × Text) × Text)
  | 'e' :: r | 'E' :: r =>
    let (below, r') : Bool × Text :=
      match r with
      | '-' :: r' => (true, r')
      | '+' :: r' => (false, r')
      | r' => (false, r')
    (digits1 r').map fun (ds, rest) => (some (below, ds), rest)
  | t => some (none, t)

def numeral (t : Text) : Option (Numeral × Text) :=
  let (negative, r) : Bool × Text :=
    match t with
    | '-' :: r => (true, r)
    | r => (false, r)
  (wholeDigits r).bind fun (whole, r) =>
    (fractionDigits r).bind fun (fraction, r) =>
      (exponentPart r).map fun (exponent, r) => (⟨negative, whole, fraction, exponent⟩, r)

mutual

/-- The value at the start of a text, after blanks. -/
def value : Nat → Text → Option (Value × Text)
  | 0, _ => none
  | fuel + 1, t =>
    match skip t with
    | 'n' :: 'u' :: 'l' :: 'l' :: r => some (.null, r)
    | 't' :: 'r' :: 'u' :: 'e' :: r => some (.boolean true, r)
    | 'f' :: 'a' :: 'l' :: 's' :: 'e' :: r => some (.boolean false, r)
    | '"' :: r => (string r).map fun (s, rest) => (.string s, rest)
    | '[' :: r =>
      match skip r with
      | ']' :: rest => some (.array [], rest)
      | r => (elements fuel r).map fun (vs, rest) => (.array vs, rest)
    | '{' :: r =>
      match skip r with
      | '}' :: rest => some (.object [], rest)
      | r => (members fuel r).map fun (ms, rest) => (.object ms, rest)
    | r => (numeral r).map fun (n, rest) => (.number n, rest)

def elements : Nat → Text → Option (List Value × Text)
  | 0, _ => none
  | fuel + 1, t =>
    (value fuel t).bind fun (v, r) =>
      match skip r with
      | ',' :: r => (elements fuel r).map fun (vs, rest) => (v :: vs, rest)
      | ']' :: rest => some ([v], rest)
      | _ => none

def members : Nat → Text → Option (List (Option Text × Value) × Text)
  | 0, _ => none
  | fuel + 1, t =>
    match skip t with
    | '"' :: r =>
      (string r).bind fun (key, r) =>
        match skip r with
        | ':' :: r =>
          (value fuel r).bind fun (v, r) =>
            match skip r with
            | ',' :: r => (members fuel r).map fun (ms, rest) => ((key, v) :: ms, rest)
            | '}' :: rest => some ([(key, v)], rest)
            | _ => none
        | _ => none
    | _ => none

end

def parse (t : Text) : Option Value :=
  match value (t.length + 1) t with
  | some (v, rest) => if skip rest = [] then some v else none
  | none => none

end DrillPost.Json
