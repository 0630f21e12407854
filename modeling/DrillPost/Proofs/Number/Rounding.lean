import DrillPost.Number.Rounding
import Mathlib

/-!
# Rounding to a whole number

The whole number nearest to a fraction, the even one of two, is at most one half away from it, and a
greater fraction has no smaller one.

* `two_mul_halfEven_le`, `le_two_mul_halfEven`, `abs_halfEven_sub_le`: how far it is away;
* `lt_of_halfEven_odd`: an odd one is nearer than one half;
* `halfEven_mono`: it keeps the order.
-/

namespace DrillPost.Number

variable {n m d : Nat}

theorem two_mul_halfEven_le : 2 * (d * halfEven n d) ≤ 2 * n + d := by
  have split : d * (n / d) + n % d = n := Nat.div_add_mod n d
  unfold halfEven
  dsimp only
  split_ifs with low high
  · omega
  · rw [Nat.mul_add]
    omega
  · rcases Nat.mod_two_eq_zero_or_one (n / d) with h | h
    · rw [h, Nat.add_zero]
      omega
    · rw [h, Nat.mul_add]
      omega

theorem le_two_mul_halfEven (hd : 0 < d) : 2 * n ≤ 2 * (d * halfEven n d) + d := by
  have split : d * (n / d) + n % d = n := Nat.div_add_mod n d
  have rest : n % d < d := Nat.mod_lt n hd
  unfold halfEven
  dsimp only
  split_ifs with low high
  · omega
  · rw [Nat.mul_add]
    omega
  · rw [Nat.mul_add]
    omega

/-- A fraction that is rounded to an odd number is nearer to it than one half. -/
theorem lt_of_halfEven_odd (hd : 0 < d) (odd : halfEven n d % 2 = 1) :
    2 * (d * halfEven n d) < 2 * n + d ∧ 2 * n < 2 * (d * halfEven n d) + d := by
  have split : d * (n / d) + n % d = n := Nat.div_add_mod n d
  have rest : n % d < d := Nat.mod_lt n hd
  revert odd
  unfold halfEven
  dsimp only
  split_ifs with low high
  · omega
  · rw [Nat.mul_add]
    omega
  · -- of two equally near ones the even one is taken
    omega

/-- Rounding moves a fraction by at most one half. -/
theorem abs_halfEven_sub_le (hd : 0 < d) : |(halfEven n d : ℚ) - n / d| ≤ 1 / 2 := by
  have pos : (0 : ℚ) < d := by exact_mod_cast hd
  have upper : (2 * (d * halfEven n d) : ℚ) ≤ 2 * n + d := by
    exact_mod_cast two_mul_halfEven_le (n := n) (d := d)
  have lower : (2 * n : ℚ) ≤ 2 * (d * halfEven n d) + d := by
    exact_mod_cast le_two_mul_halfEven (n := n) hd
  rw [abs_sub_le_iff]
  constructor
  · have : (halfEven n d : ℚ) ≤ n / d + 1 / 2 := by
      rw [← sub_le_iff_le_add, le_div_iff₀ pos]
      linarith
    linarith
  · have : (n : ℚ) / d ≤ halfEven n d + 1 / 2 := by
      rw [div_le_iff₀ pos]
      linarith
    linarith

/-- A greater fraction is not rounded to a smaller number. -/
theorem halfEven_mono (h : n ≤ m) : halfEven n d ≤ halfEven m d := by
  rcases Nat.lt_or_ge (n / d) (m / d) with hlt | hge
  · calc halfEven n d ≤ n / d + 1 := halfEven_le_succ n d
      _ ≤ m / d := hlt
      _ ≤ halfEven m d := div_le_halfEven m d
  · have quotient : n / d = m / d := Nat.le_antisymm (Nat.div_le_div_right h) hge
    have rest : n % d ≤ m % d := by
      have hn := Nat.div_add_mod n d
      have hm := Nat.div_add_mod m d
      rw [quotient] at hn
      omega
    unfold halfEven
    dsimp only
    rw [quotient]
    split_ifs <;> omega

@[simp] theorem halfEven_zero : halfEven 0 d = 0 := by
  simp [halfEven]

end DrillPost.Number
