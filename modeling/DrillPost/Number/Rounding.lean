import DrillPost.Number.Binary64

/-!
# Rounding to double precision

* `halfEven n d`: the whole number nearest to `n / d`, the even one of two equally near;
* `Magnitude.nearest n d`: the magnitude nearest to `n / d` units, `none` when it is too large;
* the operations that are exact up to this rounding: from whole numbers, product, quotient.
-/

namespace DrillPost.Number

/-- The whole number nearest to `n / d`; of two equally near the even one. -/
def halfEven (n d : Nat) : Nat :=
  let q := n / d
  let r := n % d
  if 2 * r < d then q
  else if d < 2 * r then q + 1
  else q + q % 2

theorem div_le_halfEven (n d : Nat) : n / d ≤ halfEven n d := by
  unfold halfEven
  grind

theorem halfEven_le_succ (n d : Nat) : halfEven n d ≤ n / d + 1 := by
  unfold halfEven
  grind

namespace Magnitude

/-- The exponent of the magnitude whose significand keeps the leading 53 bits of `q` units. -/
def exponentFor (q : Nat) : Nat := q.log2 - 52

theorem le_div_exponentFor {q : Nat} (h : exponentFor q ≠ 0) :
    leastNormal ≤ q / Nat.pow 2 (exponentFor q) := by
  have hq : q ≠ 0 := by
    rintro rfl
    simp [exponentFor, Nat.log2_zero] at h
  change 2 ^ 52 ≤ q / 2 ^ exponentFor q
  rw [Nat.le_div_iff_mul_le (Nat.two_pow_pos _), ← Nat.pow_add]
  refine Nat.le_trans (Nat.pow_le_pow_right (by decide) ?_) (Nat.log2_self_le hq)
  unfold exponentFor at h ⊢
  omega

/-- The magnitude nearest to `n / d` units, with ties to the even significand; `none` when it would
need a larger exponent than there is. A significand that rounds up to `2 ^ 53` is carried into the
exponent. -/
def nearest (n d : Nat) : Option Magnitude :=
  let e := exponentFor (n / d)
  let m := halfEven n (d * Nat.pow 2 e)
  have lower : e = 0 ∨ leastNormal ≤ m := by
    by_cases h : e = 0
    · exact .inl h
    · refine .inr (Nat.le_trans (le_div_exponentFor h) ?_)
      rw [Nat.div_div_eq_div_mul]
      exact div_le_halfEven n (d * Nat.pow 2 e)
  if h : m < significandEnd then
    if he : e ≤ 2045 then
      some { significand := m, exponent := e, significand_lt := h, exponent_le := he,
             canonical := lower }
    else none
  else if he : e + 1 ≤ 2045 then
    some { significand := leastNormal, exponent := e + 1, exponent_le := he,
           canonical := .inr (Nat.le_refl _) }
  else none

def ofNat (n : Nat) : Option Magnitude := nearest (n * unit) 1

def ofRatio (n d : Nat) : Option Magnitude := nearest (n * unit) d

def mul (x y : Magnitude) : Option Magnitude := nearest (x.units * y.units) unit

def div (x y : Magnitude) : Option Magnitude := nearest (x.units * unit) y.units

end Magnitude

namespace Binary64

/-- The number with a sign and a rounded magnitude; one that is too large is an infinity. -/
def ofMagnitude (negative : Bool) : Option Magnitude → Binary64
  | some x => .finite negative x
  | none => .infinite negative

def ofInt (i : Int) : Binary64 := ofMagnitude (i < 0) (Magnitude.ofNat i.natAbs)

/-- The quotient of a finite number by a positive magnitude, rounded to nearest. An infinity stays
what it is. -/
def divBy (d : Magnitude) : Binary64 → Binary64
  | .finite s x => ofMagnitude s (x.div d)
  | x => x

end Binary64

end DrillPost.Number
