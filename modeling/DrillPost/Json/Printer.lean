import DrillPost.Number.Style

/-!
# Writing JSON

Strings, numbers, and objects whose members are already written. An object stands on one line, or
on a line for each member with two more spaces in front.
-/

namespace DrillPost.Json

open Number

def hexDigit (n : Nat) : Char := Nat.digitChar n

def escape (c : Char) : Text :=
  if c = '"' then ['\\', '"']
  else if c = '\\' then ['\\', '\\']
  else if c = '\n' then ['\\', 'n']
  else if c = '\r' then ['\\', 'r']
  else if c = '\t' then ['\\', 't']
  else if c = '\x08' then ['\\', 'b']
  else if c = '\x0c' then ['\\', 'f']
  else if c.toNat < 0x20 then
    ['\\', 'u', '0', '0', hexDigit (c.toNat / 16), hexDigit (c.toNat % 16)]
  else [c]

def quoted (t : Text) : Text := '"' :: t.flatMap escape ++ ['"']

/-- Numbers have their shortest digits: by position from `1e-5` up to `1e16`, and with `.0` when
whole; a half goes to the even digit. -/
def numberStyle : Style :=
  { positionalRange := some (-5, 16), pointZero := true, plus := true, tie := .toEven }

def boolean (b : Bool) : Text := if b then "true".toList else "false".toList

def joined (separator : Text) (ts : List Text) : Text := List.flatten (ts.intersperse separator)

def compactObject (members : List (String × Text)) : Text :=
  '{' :: joined [','] (members.map fun (k, v) => quoted k.toList ++ ':' :: v) ++ ['}']

/-- An object with a line for each member; `depth` objects lie around it. -/
def prettyObject (depth : Nat) (members : List (String × Text)) : Text :=
  let line (k : String) (v : Text) : Text :=
    List.replicate (2 * (depth + 1)) ' ' ++ quoted k.toList ++ ':' :: ' ' :: v
  '{' :: '\n' :: joined [',', '\n'] (members.map fun (k, v) => line k v) ++
    '\n' :: List.replicate (2 * depth) ' ' ++ ['}']

end DrillPost.Json
