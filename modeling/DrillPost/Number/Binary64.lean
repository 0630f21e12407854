import DrillPost.Number.Digits

/-!
# Double precision numbers

The binary format with 53 significant bits, as exact data. A finite number is a sign and a
magnitude `significand * 2 ^ exponent` counted in units of `2 ^ -1074`, the least positive one.
Significand and exponent are canonical: the exponent is 0, or the significand has all its 53 bits.
So one magnitude has one form, and `units` orders them.

* `Magnitude`, `Magnitude.units`: finite magnitudes and their exact value;
* `Binary64`: not a number, the infinities, and signed magnitudes;
* `Binary64.lt`, `Binary64.le`, `Binary64.agrees`: comparison, in which nothing holds of `nan` and
  the two zeros are equal;
* `Binary64.ofBits`: the number with a given encoding in 64 bits.
-/

namespace DrillPost.Number

/-- The least significand with all its 53 bits, which is `2 ^ 52`. -/
abbrev leastNormal : Nat := 4503599627370496

/-- The end of the significands, which is `2 ^ 53`. -/
abbrev significandEnd : Nat := 9007199254740992

/-- A finite magnitude, in units of `2 ^ -1074`. -/
structure Magnitude where
  significand : Nat
  exponent : Nat
  significand_lt : significand < significandEnd := by decide
  exponent_le : exponent ≤ 2045 := by decide
  canonical : exponent = 0 ∨ leastNormal ≤ significand := by decide
  deriving DecidableEq, Repr

namespace Magnitude

/-- The number of units in the number one. -/
def unit : Nat := Nat.pow 2 1074

def units (x : Magnitude) : Nat := x.significand * Nat.pow 2 x.exponent

def zero : Magnitude := { significand := 0, exponent := 0 }

instance : Inhabited Magnitude := ⟨zero⟩

@[simp] theorem units_zero : zero.units = 0 := rfl

def isWhole (x : Magnitude) : Bool := x.units % unit == 0

end Magnitude

inductive Binary64
  | nan
  | infinite (negative : Bool)
  | finite (negative : Bool) (magnitude : Magnitude)
  deriving DecidableEq, Repr

namespace Binary64

def zero : Binary64 := .finite false .zero

instance : Inhabited Binary64 := ⟨zero⟩

def isFinite : Binary64 → Bool
  | .finite .. => true
  | _ => false

/-- A finite number as a multiple of `2 ^ -1074`; zero for the others. -/
def units : Binary64 → Int
  | .finite false x => x.units
  | .finite true x => -(x.units : Int)
  | _ => 0

/-- The place of a number in the order: the infinities lie outside the finite numbers. -/
def rank : Binary64 → Option (Int × Int)
  | .nan => none
  | .infinite true => some (-1, 0)
  | .infinite false => some (1, 0)
  | x@(.finite ..) => some (0, x.units)

/-- Strictly less. Nothing is less than `nan`, and `nan` is less than nothing. -/
def lt (x y : Binary64) : Bool :=
  match x.rank, y.rank with
  | some (a, m), some (b, n) => a < b || (a == b && m < n)
  | _, _ => false

def le (x y : Binary64) : Bool :=
  match x.rank, y.rank with
  | some (a, m), some (b, n) => a < b || (a == b && m ≤ n)
  | _, _ => false

/-- Equality of values: the two zeros are equal, and `nan` is not equal to itself. -/
def agrees (x y : Binary64) : Bool := x.le y && y.le x

/-- The number whose encoding has these 64 bits: one for the sign, 11 for the exponent, 52 for the
significand. -/
def ofBits (word : UInt64) : Binary64 :=
  let n := word.toNat
  let negative := decide (9223372036854775808 ≤ n)
  let fraction := n % leastNormal
  let biased := n / leastNormal % 2048
  have fraction_lt : fraction < leastNormal := Nat.mod_lt _ (by decide)
  if h : biased = 2047 then
    if fraction = 0 then .infinite negative else .nan
  else if biased = 0 then
    .finite negative
      { significand := fraction, exponent := 0,
        significand_lt := Nat.lt_trans fraction_lt (by decide), canonical := .inl rfl }
  else
    have biased_lt : biased < 2048 := Nat.mod_lt _ (by decide)
    .finite negative
      { significand := leastNormal + fraction, exponent := biased - 1,
        significand_lt := Nat.add_lt_add_left fraction_lt leastNormal
        exponent_le := by omega, canonical := .inr (Nat.le_add_right ..) }

end Binary64

end DrillPost.Number
