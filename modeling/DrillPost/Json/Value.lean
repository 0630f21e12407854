import DrillPost.Number.Decimal

/-!
# JSON values

A JSON value keeps what a later reader may need to judge: numbers as they are written, strings of
which a part may stand for no character, and the members of an object in their order, repeated
keys among them.

* `Numeral`, `Numeral.toInt?`, `Numeral.toBinary64?`: a written number, and what it is read as;
* `Value`: the values.
-/

namespace DrillPost.Json

open Number

structure Numeral where
  negative : Bool
  whole : Text
  fraction : Option Text := none
  /-- Sign and digits of the exponent, if there is one; true for minus. -/
  exponent : Option (Bool × Text) := none
  deriving DecidableEq, Repr

namespace Numeral

/-- The greatest row of digits that is taken into account, which is `2 ^ 64 - 1`. -/
def greatest : Nat := 18446744073709551615

/-- The greatest row of digits behind a minus that writes a whole number, which is `2 ^ 63`. -/
def greatestNegative : Nat := 9223372036854775808

/-- The greatest exponent that is looked at, which is `2 ^ 31 - 1`. -/
def greatestExponent : Nat := 2147483647

/-- Digits are taken into a number as long as it stays within 64 bits. The number, and the digits
that are left over. -/
def absorb (n : Nat) : Text → Nat × Text
  | [] => (n, [])
  | c :: cs =>
    let m := 10 * n + digitValue c
    if greatest < m then (n, c :: cs) else absorb m cs

/-- The whole number that is written, if it is written as one and has at most 64 bits. `-0` is no
whole number, and neither is one below `-2 ^ 63`. -/
def toInt? (x : Numeral) : Option Int :=
  if x.fraction.isSome || x.exponent.isSome then none
  else
    let n := digitsValue x.whole
    if x.negative then if 0 < n && n ≤ greatestNegative then some (-(n : Int)) else none
    else if n ≤ greatest then some n else none

def powerOfTen (k : Nat) : Option Magnitude := (Decimal.mk 1 k).magnitude

/-- A magnitude divided by a power of ten. A divisor beyond `10 ^ 308` is taken in several steps,
until nothing is left of the magnitude. -/
def scaleDown (x : Magnitude) (k : Nat) : Option Magnitude :=
  if h : k ≤ 308 then (powerOfTen k).bind x.div
  else if x.units = 0 then some x
  else ((powerOfTen 308).bind x.div).bind fun y => scaleDown y (k - 308)
termination_by k

def scaleUp (x : Magnitude) (k : Nat) : Option Magnitude :=
  if k ≤ 308 then (powerOfTen k).bind x.mul
  else if x.units = 0 then some x
  else none

def scale (x : Magnitude) (k : Int) : Option Magnitude :=
  if 0 ≤ k then scaleUp x k.toNat else scaleDown x k.natAbs

/-- The number that is written, to the precision that two roundings leave: the leading digits that
fit into 64 bits are rounded to a double, and that is scaled by a power of ten. Digits before the
point that do not fit count as zeros; after the point they count for nothing. None beyond the
greatest double. -/
def toBinary64? (x : Numeral) : Option Binary64 :=
  let (n, left) := absorb 0 x.whole
  let (significand, unread) := absorb n (x.fraction.getD [])
  let read := (x.fraction.getD []).length - unread.length
  let shift : Int := left.length - read
  let magnitude : Option Magnitude :=
    match x.exponent with
    | none => (Magnitude.ofNat significand).bind (scale · shift)
    | some (below, ds) =>
      let e := digitsValue ds
      if greatestExponent < e then if significand = 0 || below then some .zero else none
      else (Magnitude.ofNat significand).bind (scale · (shift + if below then -(e : Int) else e))
  magnitude.map (.finite x.negative)

end Numeral

/-- A JSON value. A string that holds half of a surrogate pair has no text. -/
inductive Value
  | null
  | boolean (b : Bool)
  | number (n : Numeral)
  | string (text : Option Text)
  | array (items : List Value)
  | object (members : List (Option Text × Value))
  deriving Repr

end DrillPost.Json
