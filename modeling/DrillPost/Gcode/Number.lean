import DrillPost.Number.Style

/-!
# Numbers in G-code

Coordinates and heights are written as the shortest decimal that reads back, or with a fixed number
of digits after the point; never with an exponent, and never as a negative zero. A feed rate
that is whole keeps its point, for controllers that take a number without one for thousandths.

* `coordinate`: a coordinate or height;
* `feedRate`: a feed rate;
* `hundredThousandths`: the number that a coordinate of a drill file stands for.
-/

namespace DrillPost.Gcode

open Number

def showsNonzero (t : Text) : Bool := t.any fun c => c != '0' && c != '.'

/-- The text of a magnitude: rounded to so many places, or shortest. A formatter that holds the
number of places in 16 bits panics beyond 65535 of them, where here a text is written. -/
def magnitude (precision : Option Nat) (x : Magnitude) : Text :=
  match precision with
  | some places => fixed places x
  | none => Style.plain.writeDecimal (x.shortest .away)

/-- A coordinate or height. The sign is left out where the digits show zero. Beyond 65535 places,
where a formatter panics, the text goes on as in `magnitude`. -/
def coordinate (precision : Option Nat) : Binary64 → Text
  | .finite negative x =>
    let t := magnitude precision x
    if negative && showsNonzero t then '-' :: t else t
  | x => Style.plain.write x

def feedRate : Binary64 → Text
  | .finite negative x =>
    Style.plain.write (.finite negative x) ++ if x.isWhole then ['.'] else []
  | x => Style.plain.write x

def hundredThousand : Magnitude := ((Magnitude.ofNat 100000).getD .zero)

/-- The number of units of length in a coordinate, which counts hundred-thousandths. -/
def hundredThousandths (i : Int) : Binary64 := (Binary64.ofInt i).divBy hundredThousand

end DrillPost.Gcode
