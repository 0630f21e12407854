import DrillPost.Text.Blank

/-!
# Decimal digits

Natural numbers as digits and back.

* `digits n`: the digits of `n`, without a leading zero;
* `paddedDigits w n`: the digits of `n`, filled up with zeros to `w` places;
* `digitsValue ds`: the number that a row of digits writes;
* `pointed n places`: `n / 10 ^ places` as a decimal fraction with exactly `places` digits after
  the point;
* `digitCount n`, `countDigits n`: the number of digits, the second of them for large numbers.
-/

namespace DrillPost.Number

def isDigit (c : Char) : Bool := c.isDigit

def digitValue (c : Char) : Nat := c.toNat - '0'.toNat

/-- The number that a row of digits writes. -/
def digitsValue (ds : Text) : Nat := ds.foldl (fun n c => 10 * n + digitValue c) 0

@[simp] theorem digitsValue_nil : digitsValue [] = 0 := rfl

theorem digitsValue_concat (ds : Text) (c : Char) :
    digitsValue (ds ++ [c]) = 10 * digitsValue ds + digitValue c := by
  simp [digitsValue]

def digits (n : Nat) : Text := Nat.toDigits 10 n

/-- The digits of a number, filled up with zeros on the left to `width` places. -/
def paddedDigits (width n : Nat) : Text :=
  let ds := digits n
  List.replicate (width - ds.length) '0' ++ ds

/-- The fraction `n / 10 ^ places` written with exactly `places` digits after the point, and with
no point when there are none. -/
def pointed (n places : Nat) : Text :=
  if places = 0 then digits n
  else
    let scale := Nat.pow 10 places
    digits (n / scale) ++ '.' :: paddedDigits places (n % scale)

/-- The number of digits of a number; zero has none. -/
def digitCount (n : Nat) : Nat :=
  if h : n = 0 then 0 else digitCount (n / 10) + 1
termination_by n
decreasing_by omega

theorem digitCount_eq_add {n k : Nat} (h : Nat.pow 10 k ≤ n) :
    digitCount n = k + digitCount (n / Nat.pow 10 k) := by
  simp only [Nat.pow_eq] at h ⊢
  induction k generalizing n with
  | zero => simp
  | succ k ih =>
    have hk : 10 ^ k ≤ n / 10 := by
      rw [Nat.le_div_iff_mul_le (by decide), ← Nat.pow_succ]
      exact h
    have hn : n ≠ 0 := by
      rintro rfl
      simp at h
    rw [digitCount, dif_neg hn, ih hk, Nat.div_div_eq_div_mul, Nat.pow_succ, Nat.mul_comm 10]
    omega

theorem ten_pow_le_two_pow (b : Nat) : Nat.pow 10 (b * 3 / 10) ≤ Nat.pow 2 b := by
  simp only [Nat.pow_eq]
  refine Nat.le_of_not_lt fun h => ?_
  have : (2 ^ b) ^ 10 < (10 ^ (b * 3 / 10)) ^ 10 := Nat.pow_lt_pow_left h (by decide)
  rw [← Nat.pow_mul, ← Nat.pow_mul, Nat.mul_comm b, Nat.pow_mul] at this
  have le : (10 : Nat) ^ (b * 3 / 10 * 10) ≤ 10 ^ (3 * b) :=
    Nat.pow_le_pow_right (by decide) (by omega)
  rw [Nat.pow_mul 10 3] at le
  exact Nat.lt_irrefl _ (Nat.lt_of_lt_of_le this
    (Nat.le_trans le (Nat.pow_le_pow_left (by decide) b)))

/-- The number of digits of a number, for which three digits in ten bits are dropped at once. -/
def countDigits (n : Nat) : Nat :=
  let k := n.log2 * 3 / 10
  k + digitCount (n / Nat.pow 10 k)

theorem countDigits_eq (n : Nat) : countDigits n = digitCount n := by
  by_cases hn : n = 0
  · subst hn
    simp [countDigits]
  · exact (digitCount_eq_add
      (Nat.le_trans (ten_pow_le_two_pow n.log2) (Nat.log2_self_le hn))).symm

end DrillPost.Number
