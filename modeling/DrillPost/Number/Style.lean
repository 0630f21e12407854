import DrillPost.Number.Shortest

/-!
# Written numbers

How a decimal is set down. A style says which decimals are written by position and which with an
exponent, and how the rest looks; each format of the library has one style value of its own.

* `Decimal.positional`, `Decimal.scientific`: the two forms;
* `Style`: the decisions of a format;
* `Style.write`: a number in a style;
* `fixed`: a magnitude with a fixed number of digits after the point.
-/

namespace DrillPost.Number

namespace Decimal

def places (d : Decimal) : Nat := (-d.exponent).toNat

def positional (d : Decimal) : Text :=
  pointed (d.coefficient * Nat.pow 10 d.exponent.toNat) d.places

def leading (d : Decimal) : Int := (digits d.coefficient).length - 1 + d.exponent

/-- One digit, a point and the other digits if there are any, and the exponent of the first. -/
def scientific (plus : Bool) (d : Decimal) : Text :=
  let mantissa : Text :=
    match digits d.coefficient with
    | c :: r@(_ :: _) => c :: '.' :: r
    | ds => ds
  let x := d.leading
  let sign : Text := if x < 0 then ['-'] else if plus then ['+'] else []
  mantissa ++ 'e' :: sign ++ digits x.natAbs

end Decimal

structure Style where
  /-- The exponents of the first digit that are written by position, the upper end not among
  them; all when absent. -/
  positionalRange : Option (Int × Int) := none
  pointZero : Bool := false
  plus : Bool := false
  /-- Which way a value half way between two shortest decimals goes. -/
  tie : Tie := .away
  deriving DecidableEq, Repr

namespace Style

/-- Whether a decimal is written by position. Zero always is. -/
def isPositional (s : Style) (d : Decimal) : Bool :=
  d.coefficient == 0 ||
    match s.positionalRange with
    | none => true
    | some (low, high) => low ≤ d.leading && d.leading < high

def writeDecimal (s : Style) (d : Decimal) : Text :=
  if s.isPositional d then
    d.positional ++ if s.pointZero && d.places == 0 then ['.', '0'] else []
  else d.scientific s.plus

/-- The shortest text of a number in a style; negative zero keeps its sign. -/
def write (s : Style) : Binary64 → Text
  | .nan => ['N', 'a', 'N']
  | .infinite negative => (if negative then ['-'] else []) ++ ['i', 'n', 'f']
  | .finite negative x =>
    (if negative then ['-'] else []) ++ s.writeDecimal (x.shortest s.tie)

def plain : Style := {}

end Style

/-- The magnitude rounded half to even to so many digits after the point, and written with
exactly these. -/
def fixed (places : Nat) (x : Magnitude) : Text :=
  pointed (halfEven (x.units * Nat.pow 10 places) Magnitude.unit) places

end DrillPost.Number
