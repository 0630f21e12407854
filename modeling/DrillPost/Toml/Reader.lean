import DrillPost.Toml.Assembly
import DrillPost.Toml.Lexical

/-!
# Reading TOML

A reader for TOML 1.0. Arrays may stretch over lines and end with a comma; inline tables may
not. A byte order mark at the start of a document is left out.

* `value`, `items`, `pairs`: values, on fuel that every step spends;
* `statements`: the statements of a document;
* `parse`: the entries of a whole document.
-/

namespace DrillPost.Toml

def scalarValue (t : Text) : Option (Value × Text) :=
  match t with
  | '"' :: _ | '\'' :: _ => (string t).map fun (s, rest) => (.string s, rest)
  | 't' :: 'r' :: 'u' :: 'e' :: rest => some (.boolean true, rest)
  | 'f' :: 'a' :: 'l' :: 's' :: 'e' :: rest => some (.boolean false, rest)
  | _ =>
    ((moment t).map fun rest => (.moment, rest)) <|> decimalFloat t <|> specialFloat t <|>
      integer t

mutual

/-- The value at the start of a text; `depth` arrays and inline tables lie around it. -/
def value : Nat → Nat → Text → Option (Value × Text)
  | 0, _, _ => none
  | fuel + 1, depth, '[' :: r =>
    if depth + 1 < depthLimit then
      (items fuel (depth + 1) r).map fun (vs, rest) => (.array vs, rest)
    else none
  | fuel + 1, depth, '{' :: r =>
    if depth + 1 < depthLimit then
      match skip r with
      | '}' :: rest => some (.table .inline [], rest)
      | r =>
        (pairs fuel (depth + 1) r).bind fun (ps, rest) =>
          (Entries.putAll [] ps).map fun es => (.table .inline es, rest)
    else none
  | _ + 1, _, t => scalarValue t

def items : Nat → Nat → Text → Option (List Value × Text)
  | 0, _, _ => none
  | fuel + 1, depth, t =>
    (skipLines t.length t).bind fun
      | ']' :: rest => some ([], rest)
      | r =>
        (value fuel depth r).bind fun (v, r) =>
          (skipLines r.length r).bind fun
            | ',' :: r => (items fuel depth r).map fun (vs, rest) => (v :: vs, rest)
            | ']' :: rest => some ([v], rest)
            | _ => none

/-- The pairs of an inline table, at least one, up to its end. -/
def pairs : Nat → Nat → Text → Option (List Pair × Text)
  | 0, _, _ => none
  | fuel + 1, depth, t =>
    (key t).bind fun (path, k, r) =>
      (after '=' r).bind fun r =>
        (value fuel depth (skip r)).bind fun (v, r) =>
          match skip r with
          | ',' :: r => (pairs fuel depth r).map fun (ps, rest) => (⟨path, k, v⟩ :: ps, rest)
          | '}' :: rest => some ([⟨path, k, v⟩], rest)
          | _ => none

end

/-- A header whose first bracket has been read, to the end of its line. -/
def header (t : Text) : Option (Header × Text) :=
  match t with
  | '[' :: r =>
    (key r).bind fun (path, k, r) => (after ']' r).bind fun r => (after ']' r).bind fun r =>
      (lineEnd r).map fun rest => (⟨true, path, k⟩, rest)
  | r =>
    (key r).bind fun (path, k, r) => (after ']' r).bind fun r =>
      (lineEnd r).map fun rest => (⟨false, path, k⟩, rest)

def pair (t : Text) : Option (Pair × Text) :=
  (key t).bind fun (path, k, r) =>
    (after '=' r).bind fun r =>
      let r := skip r
      (value (r.length + 1) 0 r).bind fun (v, r) =>
        (lineEnd r).map fun rest => (⟨path, k, v⟩, rest)

def statements : Nat → Text → Option (List Statement)
  | 0, _ => none
  | fuel + 1, t =>
    match skip t with
    | [] => some []
    | '#' :: r => (lineEnd ('#' :: r)).bind (statements fuel)
    | '\n' :: r => statements fuel r
    | '\r' :: r => (newline ('\r' :: r)).bind (statements fuel)
    | '[' :: r =>
      (header r).bind fun (h, r) => (statements fuel r).map (.header h :: ·)
    | r => (pair r).bind fun (p, r) => (statements fuel r).map (.pair p :: ·)

def dropMark : Text → Text
  | '\uFEFF' :: r => r
  | t => t

def parse (t : Text) : Option Entries :=
  (statements (t.length + 1) (dropMark t)).bind assemble

end DrillPost.Toml
