import DrillPost.Json.Reader
import DrillPost.Text.Letter
import DrillPost.Toml.Value

/-!
# Lexical parts of TOML

Blanks, comments, line ends, strings, numbers, dates and times, and keys, each as a function from a
text to what stands at its start and the rest.

* `lineEnd`: what may stand behind a statement;
* `basicString`, `literalString` and their forms over several lines;
* `number`: whole numbers in four bases and floating point numbers;
* `moment`: dates and times, with the calendar checked;
* `key`: a dotted key.
-/

namespace DrillPost.Toml

open Number

def isSpace (c : Char) : Bool := c == ' ' || c == '\t'

def skip (t : Text) : Text := t.dropWhile isSpace

/-- The text after a line feed, before which a carriage return may stand. -/
def newline : Text → Option Text
  | '\n' :: r => some r
  | '\r' :: '\n' :: r => some r
  | _ => none

def inComment (c : Char) : Bool :=
  c == '\t' || (0x20 ≤ c.toNat && c.toNat ≤ 0x7E) || 0x80 ≤ c.toNat

def skipComment : Text → Text
  | '#' :: r => r.dropWhile inComment
  | t => t

/-- The text behind the end of the line: blanks, a comment, and a line feed or the end of all. -/
def lineEnd (t : Text) : Option Text :=
  match skipComment (skip t) with
  | [] => some []
  | r => newline r

/-- The text after blanks, comments and line ends. A comment must be followed by a line end. -/
def skipLines : Nat → Text → Option Text
  | 0, t => some t
  | fuel + 1, t =>
    match skip t with
    | '#' :: r => (newline (r.dropWhile inComment)).bind (skipLines fuel)
    | '\n' :: r => skipLines fuel r
    | '\r' :: r => (newline ('\r' :: r)).bind (skipLines fuel)
    | r => some r

/-! ## Strings -/

def inBasic (c : Char) : Bool := inComment c && c != '"' && c != '\\'

def inLiteral (c : Char) : Bool := inComment c && c != '\''

def shortEscape : Char → Option Char
  | '"' => some '"'
  | '\\' => some '\\'
  | 'b' => some '\x08'
  | 'f' => some '\x0c'
  | 'n' => some '\n'
  | 'r' => some '\r'
  | 't' => some '\t'
  | _ => none

def escaped : Text → Option (Char × Text)
  | 'u' :: a :: b :: c :: d :: r =>
    (Json.hex4 a b c d).bind fun n => (Text.scalar n).map fun x => (x, r)
  | 'U' :: a :: b :: c :: d :: e :: f :: g :: h :: r =>
    (Json.hex4 a b c d).bind fun m => (Json.hex4 e f g h).bind fun n =>
      (Text.scalar (m * 0x10000 + n)).map fun x => (x, r)
  | c :: r => (shortEscape c).map fun x => (x, r)
  | [] => none

def basicString : Nat → Text → Option (Text × Text)
  | 0, _ => none
  | _ + 1, [] => none
  | _ + 1, '"' :: r => some ([], r)
  | fuel + 1, '\\' :: r =>
    (escaped r).bind fun (x, r) => (basicString fuel r).map fun (s, rest) => (x :: s, rest)
  | fuel + 1, c :: r =>
    if inBasic c then (basicString fuel r).map fun (s, rest) => (c :: s, rest) else none

def literalString (t : Text) : Option (Text × Text) :=
  match t.dropWhile inLiteral with
  | '\'' :: rest => some (t.takeWhile inLiteral, rest)
  | _ => none

/-- Up to two more quotes in front of what follows the three that end a string. -/
def finalQuotes (quote : Char) (t : Text) : Text × Text :=
  let run := (t.take 2).takeWhile (· == quote)
  (run, t.drop run.length)

def foldLines : Text → Text
  | '\n' :: r => foldLines r
  | '\r' :: '\n' :: r => foldLines r
  | c :: r => if isSpace c then foldLines r else c :: r
  | [] => []

/-- The text after blanks and line ends, of which the first must be a line end. -/
def foldedLines (t : Text) : Option Text := (newline (skip t)).map foldLines

/-- A string in three double quotes whose opening quotes have been read. A backslash at the end of a
line leaves out the line end and all blanks and line ends after it. -/
def basicLines : Nat → Text → Option (Text × Text)
  | 0, _ => none
  | _ + 1, [] => none
  | _ + 1, '"' :: '"' :: '"' :: r => some (finalQuotes '"' r)
  | fuel + 1, '\\' :: r =>
    match foldedLines r with
    | some r' => basicLines fuel r'
    | none =>
      (escaped r).bind fun (x, r) => (basicLines fuel r).map fun (s, rest) => (x :: s, rest)
  | fuel + 1, c :: r =>
    if inBasic c || c == '"' then (basicLines fuel r).map fun (s, rest) => (c :: s, rest)
    else
      (newline (c :: r)).bind fun r => (basicLines fuel r).map fun (s, rest) => ('\n' :: s, rest)

def literalLines : Nat → Text → Option (Text × Text)
  | 0, _ => none
  | _ + 1, [] => none
  | _ + 1, '\'' :: '\'' :: '\'' :: r => some (finalQuotes '\'' r)
  | fuel + 1, c :: r =>
    if inLiteral c || c == '\'' then (literalLines fuel r).map fun (s, rest) => (c :: s, rest)
    else
      (newline (c :: r)).bind fun r => (literalLines fuel r).map fun (s, rest) => ('\n' :: s, rest)

def dropNewline (t : Text) : Text := (newline t).getD t

def string : Text → Option (Text × Text)
  | '"' :: '"' :: '"' :: r => basicLines (r.length + 1) (dropNewline r)
  | '\'' :: '\'' :: '\'' :: r => literalLines (r.length + 1) (dropNewline r)
  | '"' :: r => basicString (r.length + 1) r
  | '\'' :: r => literalString r
  | _ => none

/-! ## Numbers -/

/-- Digits of a base, with single underscores between them. The digits alone, and the rest. -/
def underscored (isDigitOfBase : Char → Bool) : Text → Option (Text × Text)
  | [] => none
  | c :: '_' :: r =>
    if isDigitOfBase c then
      (underscored isDigitOfBase r).map fun (ds, rest) => (c :: ds, rest)
    else none
  | c :: r =>
    if !isDigitOfBase c then none
    else if r.head?.any isDigitOfBase then
      (underscored isDigitOfBase r).map fun (ds, rest) => (c :: ds, rest)
    else some ([c], r)

/-- A sign, true for minus, and the rest. -/
def sign : Text → Bool × Text
  | '-' :: r => (true, r)
  | '+' :: r => (false, r)
  | r => (false, r)

def wholeDigits : Text → Option (Text × Text)
  | '0' :: r => some (['0'], r)
  | t => underscored isDigit t

def valueInBase (base : Nat) (ds : Text) : Nat :=
  ds.foldl (fun n c => base * n + (Json.hexValue c).getD 0) 0

def leastInteger : Int := -9223372036854775808

def greatestInteger : Int := 9223372036854775807

def basedInteger (base : Nat) (t : Text) : Option (Value × Text) :=
  let isDigitOfBase (c : Char) : Bool :=
    match Json.hexValue c with
    | some n => n < base
    | none => false
  (underscored isDigitOfBase t).bind fun (ds, rest) =>
    let n : Int := valueInBase base ds
    if n ≤ greatestInteger then some (.integer n, rest) else none

def integer : Text → Option (Value × Text)
  | '0' :: 'x' :: r => basedInteger 16 r
  | '0' :: 'o' :: r => basedInteger 8 r
  | '0' :: 'b' :: r => basedInteger 2 r
  | t =>
    let (negative, r) := sign t
    (wholeDigits r).bind fun (ds, rest) =>
      let n : Int := digitsValue ds
      let i := if negative then -n else n
      if leastInteger ≤ i && i ≤ greatestInteger then some (.integer i, rest) else none

def exponent : Text → Option (Int × Text)
  | 'e' :: r | 'E' :: r =>
    let (below, r) := sign r
    (underscored isDigit r).map fun (ds, rest) =>
      let n : Int := digitsValue ds
      (if below then -n else n, rest)
  | _ => none

def fraction : Text → Option (Text × Text)
  | '.' :: r => underscored isDigit r
  | _ => none

/-- A number with a fraction or an exponent. One that is rounded to positive infinity is refused. -/
def decimalFloat (t : Text) : Option (Value × Text) :=
  let (negative, r) := sign t
  (wholeDigits r).bind fun (whole, r) =>
    let parts : Option (Text × Int × Text) :=
      match fraction r with
      | some (ds, r) =>
        match exponent r with
        | some (x, rest) => some (ds, x, rest)
        | none => some (ds, 0, r)
      | none => (exponent r).map fun (x, rest) => ([], x, rest)
    parts.bind fun (ds, x, rest) =>
      let value := Binary64.ofDecimal negative ⟨digitsValue (whole ++ ds), x - ds.length⟩
      if value = .infinite false then none else some (.float value, rest)

def specialFloat (t : Text) : Option (Value × Text) :=
  let (negative, r) := sign t
  match r with
  | 'i' :: 'n' :: 'f' :: rest => some (.float (.infinite negative), rest)
  | 'n' :: 'a' :: 'n' :: rest => some (.float .nan, rest)
  | _ => none

/-! ## Dates and times -/

def digitsOf (n : Nat) (t : Text) : Option (Nat × Text) :=
  let ds := t.take n
  if ds.length = n && ds.all isDigit then some (digitsValue ds, t.drop n) else none

def twoDigits (low high : Nat) (t : Text) : Option (Nat × Text) :=
  (digitsOf 2 t).bind fun (n, rest) => if low ≤ n && n ≤ high then some (n, rest) else none

def after (c : Char) : Text → Option Text
  | d :: r => if d = c then some r else none
  | [] => none

def daysOfMonth (year month : Nat) : Nat :=
  let leap := year % 4 == 0 && (year % 100 != 0 || year % 400 == 0)
  if month = 2 then if leap then 29 else 28
  else if month = 4 || month = 6 || month = 9 || month = 11 then 30
  else 31

def date (t : Text) : Option Text :=
  (digitsOf 4 t).bind fun (year, r) => (after '-' r).bind fun r =>
    (twoDigits 1 12 r).bind fun (month, r) => (after '-' r).bind fun r =>
      (twoDigits 1 (daysOfMonth year month) r).map (·.2)

def time (t : Text) : Option Text :=
  (twoDigits 0 23 t).bind fun (_, r) => (after ':' r).bind fun r =>
    (twoDigits 0 59 r).bind fun (_, r) => (after ':' r).bind fun r =>
      (twoDigits 0 60 r).map fun (_, r) =>
        match r with
        | '.' :: d :: r' => if isDigit d then r'.dropWhile isDigit else r
        | _ => r

/-- The text after the distance from universal time, if there is one. -/
def offset (t : Text) : Text :=
  match t with
  | 'Z' :: r | 'z' :: r => r
  | '+' :: r | '-' :: r =>
    let rest := (twoDigits 0 23 r).bind fun (_, r) => (after ':' r).bind fun r =>
      (twoDigits 0 59 r).map (·.2)
    rest.getD t
  | _ => t

def moment (t : Text) : Option Text :=
  match date t with
  | some r =>
    match r with
    | 'T' :: r' | 't' :: r' | ' ' :: r' => some (((time r').map offset).getD r)
    | _ => some r
  | none => time t

/-! ## Keys -/

def inBareKey (c : Char) : Bool :=
  ('a' ≤ c && c ≤ 'z') || ('A' ≤ c && c ≤ 'Z') || isDigit c || c == '-' || c == '_'

def simpleKey : Text → Option (Text × Text)
  | '"' :: r => basicString (r.length + 1) r
  | '\'' :: r => literalString r
  | t =>
    let name := t.takeWhile inBareKey
    if name = [] then none else some (name, t.dropWhile inBareKey)

/-- The parts of a key with points between them, and blanks around them. -/
def keyParts : Nat → Text → Option (List Text × Text)
  | 0, _ => none
  | fuel + 1, t =>
    (simpleKey (skip t)).bind fun (k, r) =>
      match skip r with
      | '.' :: r => (keyParts fuel r).map fun (ks, rest) => (k :: ks, rest)
      | rest => some ([k], rest)

/-- Keys, arrays and inline tables are at most this deep. -/
def depthLimit : Nat := 80

/-- A key, as the parts on the way to it and its last part. -/
def key (t : Text) : Option (List Text × Text × Text) :=
  (keyParts (t.length + 1) t).bind fun (ks, rest) =>
    if ks.length < depthLimit then ks.getLast?.map fun k => (ks.dropLast, k, rest) else none

end DrillPost.Toml
