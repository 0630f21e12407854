import DrillPost.Proofs.Number.Rounding
import DrillPost.Proofs.Number.Shortest

/-!
# What rounds to a magnitude

The interval of a magnitude, which the shortest decimal is taken from, is made of exactly what is
rounded to it: whatever lies in it is read as this magnitude. So a shortest decimal reads back, and
so does any other writing of its value.

* `Magnitude.Covers`: the interval, for a rational number of units;
* `Magnitude.nearest_eq_some_iff`: what lies in it is rounded to the magnitude, and nothing else;
* `Decimal.magnitude_eq_some_iff`: so is a decimal, be it ever so great or small;
* `Magnitude.magnitude_of_value_eq`: the shortest decimal reads back.
-/

namespace DrillPost.Number

variable {n d m : Nat}

/-- A whole number at most one half away from a fraction is what the fraction is rounded to; if it
is odd, it must be nearer than that. -/
theorem halfEven_eq (hd : 0 < d) (low : 2 * (d * m) ≤ 2 * n + d) (high : 2 * n ≤ 2 * (d * m) + d)
    (odd : m % 2 = 1 → 2 * (d * m) < 2 * n + d ∧ 2 * n < 2 * (d * m) + d) :
    halfEven n d = m := by
  have split : d * (n / d) + n % d = n := Nat.div_add_mod n d
  have rest : n % d < d := Nat.mod_lt n hd
  unfold halfEven
  dsimp only
  generalize n / d = q at *
  have le : q ≤ m := by
    by_contra h
    have : d * (m + 1) ≤ d * q := Nat.mul_le_mul_left d (by omega)
    rw [Nat.mul_succ] at this
    omega
  have ge : m ≤ q + 1 := by
    by_contra h
    have : d * (q + 2) ≤ d * m := Nat.mul_le_mul_left d (by omega)
    rw [Nat.mul_add] at this
    omega
  rcases Nat.eq_or_lt_of_le le with rfl | lt
  · -- the fraction is rounded down
    split_ifs <;> omega
  · obtain rfl : m = q + 1 := by omega
    rw [Nat.mul_succ] at *
    split_ifs <;> omega

namespace Magnitude

/-- Whether so many units round to a magnitude: they lie in its interval, whose ends belong to it
when the significand is even. -/
def Covers (x : Magnitude) (v : ℚ) : Prop :=
  if x.significand % 2 = 0 then
    (x.lowEnd * 2 ^ x.exponent : ℚ) ≤ 4 * v ∧ 4 * v ≤ x.highEnd * 2 ^ x.exponent
  else (x.lowEnd * 2 ^ x.exponent : ℚ) < 4 * v ∧ 4 * v < x.highEnd * 2 ^ x.exponent

theorem covers_div_iff {x : Magnitude} (hd : 0 < d) :
    x.Covers (n / d) ↔
      if x.significand % 2 = 0 then
        x.lowEnd * (d * 2 ^ x.exponent) ≤ 4 * n ∧ 4 * n ≤ x.highEnd * (d * 2 ^ x.exponent)
      else x.lowEnd * (d * 2 ^ x.exponent) < 4 * n ∧ 4 * n < x.highEnd * (d * 2 ^ x.exponent) := by
  have pos : (0 : ℚ) < d := by exact_mod_cast hd
  have move (k : Nat) : (k * (d * 2 ^ x.exponent) : ℚ) = k * 2 ^ x.exponent * d := by ring
  unfold Covers
  rw [← mul_div_assoc, le_div_iff₀ pos, div_le_iff₀ pos, lt_div_iff₀ pos, div_lt_iff₀ pos,
    ← move, ← move]
  norm_cast

/-- The exponent for a whole number of units between two powers of two. -/
theorem exponentFor_eq {q e : Nat} (low : e = 0 ∨ 2 ^ (52 + e) ≤ q) (high : q < 2 ^ (53 + e)) :
    exponentFor q = e := by
  unfold exponentFor
  by_cases hq : q = 0
  · subst hq
    have : e = 0 := low.resolve_right (by simp)
    simp [this]
  · have upper : q.log2 < 53 + e := (Nat.log2_lt hq).2 high
    rcases low with rfl | low
    · omega
    · have := (Nat.le_log2 hq).2 low
      omega

/-- A significand that fits is taken as it is. -/
theorem nearest_of_exponentFor {x : Magnitude} (he : exponentFor (n / d) = x.exponent)
    (hm : halfEven n (d * 2 ^ x.exponent) = x.significand) : nearest n d = some x := by
  have fits : x.significand < significandEnd := x.significand_lt
  have least : x.exponent ≤ 2045 := x.exponent_le
  simp only [nearest, Nat.pow_eq, he, hm, fits, least, dite_true]

/-- A significand that is rounded up to its end is carried into the exponent. -/
theorem nearest_of_carry {x : Magnitude} {e : Nat} (he : exponentFor (n / d) = e)
    (hx : e + 1 = x.exponent) (hm : halfEven n (d * 2 ^ e) = significandEnd)
    (hs : x.significand = leastNormal) : nearest n d = some x := by
  have least : x.exponent ≤ 2045 := x.exponent_le
  simp only [nearest, Nat.pow_eq, he, hm, hx, least, dite_true, lt_irrefl, dite_false, ← hs]

theorem lowEnd_of_ne {x : Magnitude} (h : x.exponent = 0 ∨ x.significand ≠ leastNormal) :
    x.lowEnd = 4 * x.significand - 2 := by
  unfold lowEnd
  rcases h with h | h <;> simp [h]

theorem le_lowEnd_mul (x : Magnitude) (k : Nat) :
    4 * (k * x.significand) ≤ x.lowEnd * k + 2 * k := by
  have ends : 4 * x.significand ≤ x.lowEnd + 2 := by
    unfold lowEnd
    split_ifs <;> omega
  calc 4 * (k * x.significand) = 4 * x.significand * k := by ring
    _ ≤ (x.lowEnd + 2) * k := Nat.mul_le_mul_right k ends
    _ = x.lowEnd * k + 2 * k := Nat.add_mul ..

theorem highEnd_mul (x : Magnitude) (k : Nat) :
    x.highEnd * k = 4 * (k * x.significand) + 2 * k := by
  unfold highEnd
  ring

theorem two_pow_add_mul (k e d : Nat) : 2 ^ (k + e) * d = 2 ^ k * (d * 2 ^ e) := by
  rw [Nat.pow_add]
  ring

section

variable {x : Magnitude} (hd : 0 < d) (h : x.Covers (n / d))

include hd h

/-- Where the numbers lie as dense below the magnitude as above it. -/
theorem nearest_of_regular (regular : x.exponent = 0 ∨ 2 ^ 52 * (d * 2 ^ x.exponent) ≤ n) :
    nearest n d = some x := by
  have small : x.significand < 2 ^ 53 := x.significand_lt
  have low := x.le_lowEnd_mul (d * 2 ^ x.exponent)
  have high := x.highEnd_mul (d * 2 ^ x.exponent)
  rw [covers_div_iff hd] at h
  have he : exponentFor (n / d) = x.exponent := by
    refine exponentFor_eq (regular.imp_right fun h => ?_) ?_
    · rwa [Nat.le_div_iff_mul_le hd, two_pow_add_mul]
    · rw [Nat.div_lt_iff_lt_mul hd, two_pow_add_mul]
      have : d * 2 ^ x.exponent * (x.significand + 1) ≤ d * 2 ^ x.exponent * 2 ^ 53 :=
        Nat.mul_le_mul_left _ small
      rw [Nat.mul_succ, Nat.mul_comm _ (2 ^ 53)] at this
      have scale : 0 < d * 2 ^ x.exponent := Nat.mul_pos hd (Nat.two_pow_pos _)
      split_ifs at h <;> omega
  refine nearest_of_exponentFor he
    (halfEven_eq (Nat.mul_pos hd (Nat.two_pow_pos _)) ?_ ?_ fun odd => ?_)
  · split_ifs at h <;> omega
  · split_ifs at h <;> omega
  · rw [if_neg (by omega)] at h
    omega

/-- Below a power of two the numbers lie twice as dense, and what is rounded up to the power is
carried. -/
theorem nearest_of_dense (positive : x.exponent ≠ 0) (below : n < 2 ^ 52 * (d * 2 ^ x.exponent)) :
    nearest n d = some x := by
  have least : leastNormal ≤ x.significand := x.canonical.resolve_left positive
  rw [covers_div_iff hd] at h
  have hs : x.significand = leastNormal := by
    by_contra other
    have more : (4 * leastNormal + 2) * (d * 2 ^ x.exponent) ≤ x.lowEnd * (d * 2 ^ x.exponent) := by
      rw [lowEnd_of_ne (.inr other)]
      exact Nat.mul_le_mul_right _ (by omega)
    unfold leastNormal at more
    split_ifs at h <;> omega
  have lowest : x.lowEnd = 4 * leastNormal - 1 := by simp [lowEnd, hs, positive]
  obtain ⟨e, hx⟩ := Nat.exists_eq_succ_of_ne_zero positive
  have half : d * 2 ^ x.exponent = 2 * (d * 2 ^ e) := by
    rw [hx, Nat.pow_succ]
    ring
  rw [if_pos (by rw [hs]; rfl), lowest, half] at h
  rw [half] at below
  unfold leastNormal at h
  have he : exponentFor (n / d) = e := by
    refine exponentFor_eq (.inr ?_) ?_
    · rw [Nat.le_div_iff_mul_le hd, two_pow_add_mul]
      omega
    · rw [Nat.div_lt_iff_lt_mul hd, two_pow_add_mul]
      omega
  refine nearest_of_carry he hx.symm
    (halfEven_eq (Nat.mul_pos hd (Nat.two_pow_pos _)) ?_ ?_ fun odd => absurd odd (by decide)) hs
  · unfold significandEnd
    omega
  · unfold significandEnd
    omega

/-- **What lies in the interval of a magnitude is rounded to it.** -/
theorem nearest_eq_some : nearest n d = some x := by
  by_cases regular : x.exponent = 0 ∨ 2 ^ 52 * (d * 2 ^ x.exponent) ≤ n
  · exact nearest_of_regular hd h regular
  · obtain ⟨positive, below⟩ := not_or.1 regular
    exact nearest_of_dense hd h positive (Nat.lt_of_not_le below)

end

/-- What rounding to nearest comes to: a significand that is taken as it is, or one that is carried
because it reaches its end. -/
theorem nearest_cases {x : Magnitude} (h : nearest n d = some x) :
    (x.exponent = exponentFor (n / d) ∧ x.significand = halfEven n (d * 2 ^ x.exponent)) ∨
      ∃ e, e = exponentFor (n / d) ∧ x.exponent = e + 1 ∧ x.significand = leastNormal ∧
        significandEnd ≤ halfEven n (d * 2 ^ e) := by
  simp only [nearest, Nat.pow_eq] at h
  split_ifs at h with fits
  · cases h
    exact .inl ⟨rfl, rfl⟩
  · cases h
    exact .inr ⟨_, rfl, rfl, rfl, Nat.le_of_not_lt fits⟩

section

variable {e : Nat} (hd : 0 < d) (he : e = exponentFor (n / d))

include hd he

/-- In the exponent that is chosen for it, a fraction is below the end of the significands. -/
theorem lt_significandEnd_mul : n < significandEnd * (d * 2 ^ e) := by
  have top : n / d < 2 ^ (53 + e) := by
    refine Nat.lt_log2_self.trans_le (Nat.pow_le_pow_right (by decide) ?_)
    unfold exponentFor at he
    omega
  rwa [Nat.div_lt_iff_lt_mul hd, two_pow_add_mul] at top

/-- If this is not the least exponent, the fraction is not below the least normal significand. -/
theorem leastNormal_mul_le (h : e ≠ 0) : leastNormal * (d * 2 ^ e) ≤ n := by
  subst he
  have least := le_div_exponentFor h
  rw [Nat.div_div_eq_div_mul, Nat.pow_eq] at least
  rwa [Nat.le_div_iff_mul_le (Nat.mul_pos hd (Nat.two_pow_pos _))] at least

end

section

variable {x : Magnitude} (hd : 0 < d)

include hd

/-- A fraction lies in the interval of its significand. -/
theorem covers_of_exponentFor (he : x.exponent = exponentFor (n / d))
    (hm : x.significand = halfEven n (d * 2 ^ x.exponent)) : x.Covers (n / d) := by
  have scale : 0 < d * 2 ^ x.exponent := Nat.mul_pos hd (Nat.two_pow_pos _)
  have lower := two_mul_halfEven_le (n := n) (d := d * 2 ^ x.exponent)
  have upper := le_two_mul_halfEven (n := n) scale
  have odd := lt_of_halfEven_odd (n := n) scale
  rw [← hm] at lower upper odd
  rw [covers_div_iff hd]
  by_cases regular : x.exponent = 0 ∨ x.significand ≠ leastNormal
  · have once : x.significand ≠ 0 → d * 2 ^ x.exponent ≤ d * 2 ^ x.exponent * x.significand :=
      fun some => Nat.le_mul_of_pos_right _ (Nat.pos_of_ne_zero some)
    rw [highEnd_mul, lowEnd_of_ne regular, Nat.sub_mul, Nat.mul_assoc 4, Nat.mul_comm x.significand]
    generalize d * 2 ^ x.exponent * x.significand = product at *
    generalize d * 2 ^ x.exponent = k at *
    split_ifs with even
    · omega
    · have strict := odd (Nat.mod_two_ne_zero.1 even)
      have positive := once fun zero => even (by rw [zero])
      omega
  · -- the lower end is nearer here, but the fraction is not below the magnitude
    obtain ⟨positive, power⟩ := not_or.1 regular
    have power := not_not.1 power
    have low : x.lowEnd = 4 * leastNormal - 1 := by simp [lowEnd, power, positive]
    have least := leastNormal_mul_le hd he positive
    rw [power] at upper
    rw [low, highEnd, power, if_pos (by decide)]
    generalize d * 2 ^ x.exponent = k at *
    unfold leastNormal at *
    omega

/-- A fraction lies in the interval of the magnitude that it is carried to. -/
theorem covers_of_carry {e : Nat} (he : e = exponentFor (n / d)) (hx : x.exponent = e + 1)
    (hs : x.significand = leastNormal) (hm : significandEnd ≤ halfEven n (d * 2 ^ e)) :
    x.Covers (n / d) := by
  have above := lt_significandEnd_mul hd he
  have lower := two_mul_halfEven_le (n := n) (d := d * 2 ^ e)
  have reach := Nat.mul_le_mul_left (d * 2 ^ e) hm
  have double : d * 2 ^ x.exponent = 2 * (d * 2 ^ e) := by
    rw [hx, Nat.pow_succ]
    ring
  have low : x.lowEnd = 4 * leastNormal - 1 := by simp [lowEnd, hs, hx]
  rw [covers_div_iff hd, low, highEnd, hs, double, if_pos (by decide)]
  generalize d * 2 ^ e = k at *
  unfold significandEnd leastNormal at *
  omega

/-- **Rounding to nearest**: everything in the interval of a magnitude is rounded to it, and nothing
else is. -/
theorem nearest_eq_some_iff : nearest n d = some x ↔ x.Covers (n / d) := by
  constructor
  · intro h
    rcases nearest_cases h with ⟨he, hm⟩ | ⟨e, he, hx, hs, hm⟩
    · exact covers_of_exponentFor hd he hm
    · exact covers_of_carry hd he hx hs hm
  · exact nearest_eq_some hd

end

/-- What is not too large is rounded to some magnitude. -/
theorem exists_nearest_eq_some (h : n / d < 2 ^ 2097) : ∃ x, nearest n d = some x := by
  have least : exponentFor (n / d) ≤ 2044 := by
    unfold exponentFor
    by_cases zero : n / d = 0
    · simp [zero]
    · have := (Nat.log2_lt zero).2 h
      omega
  simp only [nearest]
  by_cases fits : halfEven n (d * Nat.pow 2 (exponentFor (n / d))) < significandEnd
  · rw [dif_pos fits, dif_pos (by omega)]
    exact ⟨_, rfl⟩
  · rw [dif_neg fits, dif_pos (by omega)]
    exact ⟨_, rfl⟩

end Magnitude

/-! ## Decimals -/

theorem lt_ten_pow_digitCount (n : Nat) : n < 10 ^ digitCount n := by
  fun_induction digitCount n with
  | case1 => decide
  | case2 n h ih =>
    rw [Nat.pow_succ]
    omega

theorem ten_pow_digitCount_le {n : Nat} (h : n ≠ 0) : 10 ^ digitCount n ≤ 10 * n := by
  fun_induction digitCount n with
  | case1 => exact absurd rfl h
  | case2 n h ih =>
    rw [Nat.pow_succ]
    by_cases hn : n / 10 = 0
    · rw [hn, digitCount]
      simp
      omega
    · have := ih hn
      omega

namespace Magnitude

variable {x : Magnitude} {v : ℚ}

/-- Only zero takes less than half a unit. -/
theorem eq_zero_of_covers (h : x.Covers v) (hv : 4 * v < 2) : x = zero := by
  have low : (x.lowEnd * 2 ^ x.exponent : ℚ) ≤ 4 * v := by
    unfold Covers at h
    split_ifs at h
    · exact h.1
    · exact h.1.le
  have none : x.significand = 0 := by
    by_contra hs
    have two : 2 ≤ x.lowEnd := by
      unfold lowEnd
      split_ifs <;> omega
    have : 2 * 1 ≤ x.lowEnd * 2 ^ x.exponent := Nat.mul_le_mul two Nat.one_le_two_pow
    have : (2 : ℚ) ≤ x.lowEnd * 2 ^ x.exponent := by exact_mod_cast this
    linarith
  refine units_injective ?_
  rw [units, none, Nat.zero_mul, units_zero]

theorem covers_iff_eq_zero (nonneg : 0 ≤ v) (hv : 4 * v < 2) : x.Covers v ↔ x = zero := by
  refine ⟨fun h => eq_zero_of_covers h hv, ?_⟩
  rintro rfl
  have low : zero.lowEnd = 0 := rfl
  have high : zero.highEnd = 2 := rfl
  have even : zero.significand % 2 = 0 := rfl
  have exponent : zero.exponent = 0 := rfl
  rw [Covers, if_pos even, low, high, exponent]
  constructor
  · simpa using nonneg
  · simpa using hv.le

/-- What a magnitude takes is below the end of the magnitudes with its exponent. -/
theorem lt_of_covers {e : Nat} (h : x.Covers v) (he : x.exponent ≤ e) :
    v < (significandEnd * Nat.pow 2 e : Nat) := by
  have high : 4 * v ≤ x.highEnd * 2 ^ x.exponent := by
    unfold Covers at h
    split_ifs at h
    · exact h.2
    · exact h.2.le
  have ends : x.highEnd * 2 ^ x.exponent < 4 * (significandEnd * Nat.pow 2 e) := by
    have hs : x.significand < significandEnd := x.significand_lt
    calc x.highEnd * 2 ^ x.exponent < 4 * significandEnd * 2 ^ x.exponent :=
          Nat.mul_lt_mul_of_pos_right (by unfold highEnd; omega) (Nat.two_pow_pos _)
      _ ≤ 4 * significandEnd * 2 ^ e :=
          Nat.mul_le_mul_left _ (Nat.pow_le_pow_right (by decide) he)
      _ = 4 * (significandEnd * Nat.pow 2 e) := Nat.mul_assoc ..
  have : (x.highEnd * 2 ^ x.exponent : ℚ) < 4 * (significandEnd * Nat.pow 2 e : Nat) := by
    exact_mod_cast ends
  linarith

/-- What a magnitude takes is at most half a unit of its last place away. -/
theorem abs_units_sub_le (h : x.Covers v) : |(x.units : ℚ) - v| ≤ 2 ^ x.exponent / 2 := by
  have ends : (x.lowEnd * 2 ^ x.exponent : ℚ) ≤ 4 * v ∧ 4 * v ≤ x.highEnd * 2 ^ x.exponent := by
    unfold Covers at h
    split_ifs at h
    · exact h
    · exact ⟨h.1.le, h.2.le⟩
  have low : (4 * (2 ^ x.exponent * x.significand) : ℚ) ≤
      x.lowEnd * 2 ^ x.exponent + 2 * 2 ^ x.exponent := by
    exact_mod_cast x.le_lowEnd_mul (2 ^ x.exponent)
  have high : (x.highEnd * 2 ^ x.exponent : ℚ) =
      4 * (2 ^ x.exponent * x.significand) + 2 * 2 ^ x.exponent := by
    exact_mod_cast x.highEnd_mul (2 ^ x.exponent)
  have units : (x.units : ℚ) = 2 ^ x.exponent * x.significand := by
    rw [units, Nat.pow_eq, Nat.mul_comm]
    push_cast
    rfl
  rw [units, abs_sub_le_iff]
  constructor <;> linarith

/-- A unit of the last place is the least unit or one part in `2 ^ 52`. -/
theorem two_pow_exponent_le (x : Magnitude) : (2 ^ x.exponent : ℚ) ≤ 1 + x.units / 2 ^ 52 := by
  rcases x.canonical with least | normal
  · rw [least, pow_zero]
    exact le_add_of_nonneg_right (by positivity)
  · have whole : leastNormal * 2 ^ x.exponent ≤ x.units := Nat.mul_le_mul_right _ normal
    have parts : (2 ^ x.exponent : ℚ) ≤ x.units / 2 ^ 52 := by
      rw [le_div_iff₀ (by positivity), mul_comm]
      exact_mod_cast whole
    linarith

/-- **The error of a magnitude** is one part in `2 ^ 52` at most, and that for a number below one
as for one. -/
theorem abs_value_sub_le_of_covers (hv : 0 ≤ v) (h : x.Covers (v * unit)) :
    |x.value - v| ≤ (v + 1) / 2 ^ 52 := by
  have positive : (0 : ℚ) < unit := by exact_mod_cast unit_pos
  have least : 2 ^ 52 ≤ unit := Nat.pow_le_pow_right (by decide) (by decide)
  have large : (2 ^ 52 : ℚ) ≤ unit := by exact_mod_cast least
  have error := abs_units_sub_le h
  have scaled : |(x.units : ℚ) - v * unit| ≤ (v + 1) / 2 ^ 52 * unit := by
    have place := x.two_pow_exponent_le
    have above := (abs_sub_le_iff.1 error).1
    have some : 0 ≤ v * unit := by positivity
    rw [div_mul_eq_mul_div, add_mul, one_mul]
    linarith
  rwa [Magnitude.value, ← mul_div_cancel_right₀ v positive.ne', ← sub_div, abs_div,
    abs_of_pos positive, div_le_iff₀ positive, mul_div_cancel_right₀ v positive.ne']

end Magnitude

namespace Decimal

variable {d : Decimal} {x : Magnitude}

theorem value_nonneg (d : Decimal) : 0 ≤ d.value := by
  unfold value
  positivity

theorem value_lt_zpow (d : Decimal) :
    d.value < 10 ^ ((countDigits d.coefficient : Int) + d.exponent) := by
  have : (d.coefficient : ℚ) < 10 ^ countDigits d.coefficient := by
    rw [countDigits_eq]
    exact_mod_cast lt_ten_pow_digitCount _
  rw [zpow_add₀ (by norm_num), zpow_natCast, value]
  gcongr

theorem zpow_le_value (h : d.coefficient ≠ 0) :
    10 ^ ((countDigits d.coefficient : Int) + d.exponent) ≤ 10 * d.value := by
  have : (10 : ℚ) ^ countDigits d.coefficient ≤ 10 * d.coefficient := by
    rw [countDigits_eq]
    exact_mod_cast ten_pow_digitCount_le h
  rw [zpow_add₀ (by norm_num), zpow_natCast, value, ← mul_assoc]
  gcongr

theorem two_pow_le_ten_pow (k : Nat) : 2 ^ (93 * k) ≤ 10 ^ (28 * k) := by
  rw [Nat.pow_mul, Nat.pow_mul]
  exact Nat.pow_le_pow_left (by decide) k

/-- The end of the magnitudes is below `10 ^ 310`. -/
theorem great_bound : significandEnd * Nat.pow 2 2045 * 10 ≤ 10 ^ 311 * Magnitude.unit := by
  have split : significandEnd * Nat.pow 2 2045 = 2 ^ (93 * 11) * (2 * Magnitude.unit) := by
    rw [show significandEnd = 2 ^ 53 by decide, Magnitude.unit, Nat.pow_eq, Nat.pow_eq, ← pow_succ',
      ← pow_add, ← pow_add]
  calc significandEnd * Nat.pow 2 2045 * 10 = 2 ^ (93 * 11) * (2 * Magnitude.unit) * 10 := by
        rw [split]
    _ ≤ 10 ^ (28 * 11) * (2 * Magnitude.unit) * 10 :=
        Nat.mul_le_mul_right _ (Nat.mul_le_mul_right _ (two_pow_le_ten_pow 11))
    _ = 20 * 10 ^ 308 * Magnitude.unit := by ring
    _ ≤ 10 ^ 311 * Magnitude.unit := Nat.mul_le_mul_right _ (by
        rw [show 311 = 3 + 308 from rfl, pow_add]
        exact Nat.mul_le_mul_right _ (by decide))

/-- Half a unit is more than `10 ^ -331`. -/
theorem small_bound : 2 * Magnitude.unit ≤ 10 ^ 331 := by
  have split : 2 * Magnitude.unit = 2 ^ (93 * 11) * 2 ^ 52 := by
    rw [Magnitude.unit, Nat.pow_eq, ← pow_succ', ← pow_add]
  rw [split, show 331 = 28 * 11 + 23 from rfl, pow_add]
  exact Nat.mul_le_mul (two_pow_le_ten_pow 11) (by decide)

/-- A decimal with its first digit far in front of the point is beyond all magnitudes. -/
theorem not_covers_of_great (zero : d.coefficient ≠ 0)
    (great : 310 < countDigits d.coefficient + d.exponent) :
    ¬ x.Covers (d.value * Magnitude.unit) := by
  intro h
  have least : (10 : ℚ) ^ (311 : Nat) ≤ 10 * d.value := by
    rw [← zpow_natCast]
    exact (zpow_le_zpow_right₀ (by norm_num) (by omega)).trans (zpow_le_value zero)
  obtain ⟨top, bound, below⟩ : ∃ top : Nat,
      significandEnd * top * 10 ≤ 10 ^ 311 * Magnitude.unit ∧
        d.value * Magnitude.unit < (significandEnd * top : Nat) :=
    ⟨_, great_bound, Magnitude.lt_of_covers h x.exponent_le⟩
  generalize Magnitude.unit = u at bound below
  have bound : ((significandEnd * top : Nat) * 10 : ℚ) ≤ (10 : ℚ) ^ (311 : Nat) * u := by
    exact_mod_cast bound
  generalize (10 : ℚ) ^ (311 : Nat) = power at bound least
  have := mul_le_mul_of_nonneg_right least (Nat.cast_nonneg u)
  linarith

/-- A decimal with its first digit far behind the point is less than half a unit. -/
theorem lt_of_small (small : countDigits d.coefficient + d.exponent < -330) :
    4 * (d.value * Magnitude.unit) < 2 := by
  have most : d.value * 10 ^ (331 : Nat) < 1 := by
    have := d.value_lt_zpow.trans_le
      (zpow_le_zpow_right₀ (by norm_num : (1 : ℚ) ≤ 10) (by omega : _ ≤ -((331 : Nat) : Int)))
    rwa [zpow_neg, ← one_div, zpow_natCast, lt_div_iff₀ (by positivity)] at this
  have bound := small_bound
  generalize Magnitude.unit = u at bound
  have bound : (2 * u : ℚ) ≤ 10 ^ (331 : Nat) := by exact_mod_cast bound
  generalize (10 : ℚ) ^ (331 : Nat) = power at bound most
  have := mul_le_mul_of_nonneg_left bound d.value_nonneg
  linarith

/-- **A decimal in the interval of a magnitude is read as this magnitude**, and no other one is. -/
theorem magnitude_eq_some_iff : d.magnitude = some x ↔ x.Covers (d.value * Magnitude.unit) := by
  have nonneg : 0 ≤ d.value * Magnitude.unit := mul_nonneg d.value_nonneg (Nat.cast_nonneg _)
  unfold magnitude
  by_cases zero : d.coefficient = 0
  · have none : d.value = 0 := by simp [value, zero]
    rw [if_pos zero, Magnitude.covers_iff_eq_zero nonneg (by rw [none, zero_mul]; norm_num),
      Option.some.injEq, eq_comm]
  rw [if_neg zero]
  dsimp only
  by_cases great : 310 < countDigits d.coefficient + d.exponent
  · rw [if_pos great]
    exact iff_of_false (by rintro ⟨⟩) (not_covers_of_great zero great)
  rw [if_neg great]
  by_cases small : countDigits d.coefficient + d.exponent < -330
  · rw [if_pos small, Magnitude.covers_iff_eq_zero nonneg (lt_of_small small), Option.some.injEq,
      eq_comm]
  rw [if_neg small]
  by_cases whole : 0 ≤ d.exponent
  · have power : (10 : ℚ) ^ d.exponent = 10 ^ d.exponent.toNat := by
      rw [← zpow_natCast, Int.toNat_of_nonneg whole]
    have ratio (u : Nat) : d.value * u =
        (d.coefficient * Nat.pow 10 d.exponent.toNat * u : Nat) / (1 : Nat) := by
      rw [value, power, Nat.pow_eq]
      push_cast
      ring
    rw [if_pos whole, ratio]
    exact Magnitude.nearest_eq_some_iff Nat.one_pos
  · have power : (10 : ℚ) ^ d.exponent = (10 ^ (-d.exponent).toNat)⁻¹ := by
      rw [← zpow_natCast, ← zpow_neg, Int.toNat_of_nonneg (by omega), neg_neg]
    have ratio (u : Nat) : d.value * u =
        (d.coefficient * u : Nat) / (Nat.pow 10 (-d.exponent).toNat : Nat) := by
      rw [value, power, Nat.pow_eq]
      push_cast
      ring
    rw [if_neg whole, ratio]
    exact Magnitude.nearest_eq_some_iff (Nat.pow_pos (by decide))

end Decimal

/-! ## The shortest decimal -/

namespace Magnitude

variable {x : Magnitude}

/-- Both ways of writing an interval agree. -/
theorem covers_iff_holds {n : Nat} :
    x.Covers (n / (Nat.pow 5 1074 : Nat)) ↔ x.interval.holds n = true := by
  have closed : x.interval.closed = (x.significand % 2 == 0) := rfl
  rw [covers_div_iff five_pow_pos, Interval.holds, low_interval, high_interval, closed]
  generalize Nat.pow 5 1074 = k
  rw [Nat.mul_comm k]
  simp only [beq_iff_eq, Nat.pow_eq]
  split_ifs <;> simp only [Bool.and_eq_true, decide_eq_true_eq]

/-- The value of a magnitude lies in its interval. -/
theorem covers_units (x : Magnitude) : x.Covers x.units := by
  have value : (x.decimalUnits : ℚ) / (Nat.pow 5 1074 : Nat) = x.units := by
    have positive := five_pow_pos
    rw [decimalUnits]
    generalize Nat.pow 5 1074 = k at positive ⊢
    rw [Nat.cast_mul, mul_div_cancel_right₀ _ (by exact_mod_cast positive.ne')]
  exact value ▸ covers_iff_holds.2 (holds_decimalUnits x)

theorem mul_ten_zpow_mul {u k : Nat} (hu : u = Nat.pow 2 k) (n : Nat) :
    (n : ℚ) * 10 ^ (-(k : Int)) * u = n / (Nat.pow 5 k : Nat) := by
  simp only [hu, Nat.pow_eq, Nat.cast_pow, Nat.cast_ofNat]
  rw [zpow_neg, zpow_natCast, show (10 : ℚ) = 2 * 5 by norm_num, mul_pow]
  field_simp

/-- A multiple of `10 ^ -1074` lies in an interval in both ways of writing it. -/
theorem covers_mul_unit_iff (n : Nat) :
    x.Covers (n * 10 ^ (-1074 : Int) * unit) ↔ x.interval.holds n = true := by
  have units : (n : ℚ) * 10 ^ (-1074 : Int) * unit = n / (Nat.pow 5 1074 : Nat) :=
    mul_ten_zpow_mul rfl n
  rw [units]
  exact covers_iff_holds

/-- The shortest decimal lies in the interval. -/
theorem covers_shortest (tie : Tie) (x : Magnitude) :
    x.Covers ((x.shortest tie).value * unit) := by
  obtain ⟨n, value, holds⟩ := exists_holds_shortest tie x
  rw [value]
  exact (covers_mul_unit_iff n).2 holds

/-- **The shortest decimal of a magnitude is read as this magnitude**, and so is every decimal of
its value. -/
theorem magnitude_of_value_eq {d : Decimal} (tie : Tie) (h : d.value = (x.shortest tie).value) :
    d.magnitude = some x := by
  refine Decimal.magnitude_eq_some_iff.2 ?_
  rw [h]
  exact x.covers_shortest tie

end Magnitude

end DrillPost.Number
