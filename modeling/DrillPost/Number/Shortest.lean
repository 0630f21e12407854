import DrillPost.Number.Decimal

/-!
# The shortest decimal that reads back

Every magnitude stands for an interval of reals: those that round to it. The interval reaches half
way to the two neighbours, and its ends belong to it when the significand is even. Below a power of
two the neighbours lie twice as dense, so there the interval is shorter at its lower end.

All is measured in units of `10 ^ -1074`, in which a magnitude of `u` units of `2 ^ -1074` is the
whole number `u * 5 ^ 1074`; distances are taken four times, so that halves and quarters of the
spacing are whole too. For 1, 2, … 17 digits the two neighbours of the value on that decimal grid
are tested, and the first grid with a hit gives the decimal.

* `Magnitude.interval`: the ends of the interval and whether they belong to it;
* `Magnitude.onGrid`: the decimal of so many digits in the interval that is nearest to the value;
* `Magnitude.shortest`: the decimal of fewest digits in the interval.
-/

namespace DrillPost.Number

/-- What happens to a value half way between two decimals. -/
inductive Tie
  | away
  | toEven
  deriving DecidableEq, Repr

namespace Magnitude

/-- The value as a multiple of `10 ^ -1074`. -/
def decimalUnits (x : Magnitude) : Nat := x.units * Nat.pow 5 1074

/-- The reals that round to a magnitude, as four times their multiples of `10 ^ -1074`. -/
structure Interval where
  low : Nat
  high : Nat
  closed : Bool

def Interval.holds (i : Interval) (n : Nat) : Bool :=
  if i.closed then i.low ≤ 4 * n && 4 * n ≤ i.high else i.low < 4 * n && 4 * n < i.high

def interval (x : Magnitude) : Interval :=
  let spacing := Nat.pow 2 x.exponent * Nat.pow 5 1074
  let below := if x.significand = leastNormal && x.exponent != 0 then spacing else 2 * spacing
  { low := 4 * x.decimalUnits - below, high := 4 * x.decimalUnits + 2 * spacing,
    closed := x.significand % 2 == 0 }

/-- Of the multiples of `grid` next to the value, the one in the interval that is nearest to it,
divided by `grid`. -/
def onGrid (tie : Tie) (x : Magnitude) (grid : Nat) : Option Nat :=
  let n := x.decimalUnits
  let c := n / grid
  let i := x.interval
  match i.holds (c * grid), i.holds ((c + 1) * grid) with
  | false, false => none
  | true, false => some c
  | false, true => some (c + 1)
  | true, true =>
    let twice := 2 * (n % grid)
    if twice < grid then some c
    else if grid < twice then some (c + 1)
    else match tie with
      | .away => some (c + 1)
      | .toEven => some (c + c % 2)

/-- The decimal of fewest digits that rounds to the magnitude, and of those the nearest to it. The
value itself is a decimal of the finest grid, which is taken if no shorter one fits. -/
def shortest (tie : Tie) (x : Magnitude) : Decimal :=
  let n := x.decimalUnits
  if n = 0 then ⟨0, 0⟩
  else
    let count := countDigits n
    let hit := (List.range 17).findSome? fun k =>
      let places := count - (k + 1)
      (x.onGrid tie (Nat.pow 10 places)).map fun c => (c, places)
    match hit with
    | some (c, places) => .normalize c ((places : Int) - 1074)
    | none => .normalize n (-1074)

end Magnitude

end DrillPost.Number
