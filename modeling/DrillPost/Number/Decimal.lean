import DrillPost.Number.Rounding

/-!
# Decimal numbers

A decimal `coefficient * 10 ^ exponent`, its reading from a text, and the double nearest to it.

* `Decimal.normalize`: the same value without zeros at the end of the coefficient;
* `Decimal.magnitude`: the nearest magnitude, `none` beyond the greatest;
* `Decimal.scan`: digits, an optional fraction and an optional exponent, as a decimal;
* `isNumber`: whether a text writes a number, more freely than a decimal is read;
* `Binary64.ofText`: a signed decimal, or one of the words for infinity and `nan`.
-/

namespace DrillPost.Number

structure Decimal where
  coefficient : Nat
  exponent : Int
  deriving DecidableEq, Repr

namespace Decimal

/-- The same value with no zero at the end of the coefficient. -/
def normalize (c : Nat) (x : Int) : Decimal :=
  if h : c ≠ 0 ∧ c % 10 = 0 then normalize (c / 10) (x + 1)
  else ⟨c, if c = 0 then 0 else x⟩
termination_by c
decreasing_by omega

/-- The magnitude nearest to a decimal. A decimal with its first digit at the place `e` lies
between `10 ^ (e - 1)` and `10 ^ e`, so outside `10 ^ (-331)` to `10 ^ 310` the digits need not be
looked at. -/
def magnitude (d : Decimal) : Option Magnitude :=
  if d.coefficient = 0 then some .zero
  else
    let top := countDigits d.coefficient + d.exponent
    if 310 < top then none
    else if top < -330 then some .zero
    else if 0 ≤ d.exponent then Magnitude.ofNat (d.coefficient * Nat.pow 10 d.exponent.toNat)
    else Magnitude.ofRatio d.coefficient (Nat.pow 10 (-d.exponent).toNat)

def spanDigits (t : Text) : Text × Text := t.span isDigit

def scanExponent (t : Text) : Option (Int × Text) :=
  let (negative, r) : Bool × Text :=
    match t with
    | '-' :: r => (true, r)
    | '+' :: r => (false, r)
    | r => (false, r)
  match spanDigits r with
  | ([], _) => none
  | (ds, rest) =>
    let n : Int := digitsValue ds
    some (if negative then -n else n, rest)

/-- An unsigned decimal that takes up the whole text: digits, then an optional point with digits,
then an optional exponent. -/
def scan (t : Text) : Option Decimal :=
  let (whole, r) := spanDigits t
  if whole.isEmpty then none
  else
    let fractional : Option (Text × Text) :=
      match r with
      | '.' :: r' =>
        let (ds, rest) := spanDigits r'
        if ds.isEmpty then none else some (ds, rest)
      | _ => some ([], r)
    fractional.bind fun (fraction, rest) =>
      let c := digitsValue (whole ++ fraction)
      let x : Int := -fraction.length
      match rest with
      | [] => some ⟨c, x⟩
      | 'e' :: r' | 'E' :: r' =>
        match scanExponent r' with
        | some (y, []) => some ⟨c, x + y⟩
        | _ => none
      | _ => none

end Decimal

/-- Whether a text writes a number: an optional sign, then one of the words for infinity and for no
number in letters of either case, or digits with an optional point and an optional exponent. One
side of the point may be without digits. -/
def isNumber (t : Text) : Bool :=
  let r :=
    match t with
    | '+' :: r | '-' :: r => r
    | r => r
  let word := r.map Char.toLower
  let (whole, r) := Decimal.spanDigits r
  let (fraction, r) :=
    match r with
    | '.' :: q => Decimal.spanDigits q
    | q => ([], q)
  let exponent :=
    match r with
    | [] => true
    | c :: q => (c == 'e' || c == 'E') && (Decimal.scanExponent q).any fun (_, rest) => rest.isEmpty
  ["inf".toList, "infinity".toList, "nan".toList].contains word ||
    (!(whole.isEmpty && fraction.isEmpty) && exponent)

namespace Binary64

def ofDecimal (negative : Bool) (d : Decimal) : Binary64 := ofMagnitude negative d.magnitude

/-- The number that a text writes: `NaN`, `inf`, or a decimal, with an optional sign. -/
def ofText (t : Text) : Option Binary64 :=
  let (negative, r) : Bool × Text :=
    match t with
    | '-' :: r => (true, r)
    | '+' :: r => (false, r)
    | r => (false, r)
  if r = ['N', 'a', 'N'] then some .nan
  else if r = ['i', 'n', 'f'] then some (.infinite negative)
  else (Decimal.scan r).map (ofDecimal negative)

end Binary64

end DrillPost.Number
