import DrillPost.Proofs.Number.Length

/-!
# Short decimals come back

The points of a decimal grid on which a value has 15 digits lie further apart than doubles of this
size do, so at most one of them lies in the interval of a double. A decimal of 15 digits at most is
a point of this grid, and of no coarser grid another point can be in the same interval; so it is the
shortest decimal of the double that it rounds to. Doubles with fewer significant bits, which lie
less dense, are excepted.

* `Magnitude.spacing`, `Magnitude.near_of_holds`: how wide an interval is;
* `Magnitude.eq_of_holds_of_dvd`: the only point of a grid in it;
* `Magnitude.value_shortest_of_covers`: short decimals come back.
-/

namespace DrillPost.Number.Magnitude

variable {x : Magnitude}

/-- The greatest length with which every decimal comes back. -/
def reliableLength : Nat := 15

/-! ## The width of an interval -/

/-- The distance of a magnitude from the next greater one, in units of `10 ^ -1074`. -/
def spacing (x : Magnitude) : Nat := Nat.pow 2 x.exponent * Nat.pow 5 1074

theorem spacing_pos (x : Magnitude) : 0 < x.spacing := Nat.mul_pos (Nat.two_pow_pos _) five_pow_pos

/-- What lies in the interval is at most half the spacing away from the value. -/
theorem near_of_holds {a : Nat} (h : x.interval.holds a = true) :
    2 * a ≤ 2 * x.decimalUnits + x.spacing ∧ 2 * x.decimalUnits ≤ 2 * a + x.spacing := by
  have high : x.interval.high = 4 * x.decimalUnits + 2 * x.spacing := rfl
  have low : 4 * x.decimalUnits ≤ x.interval.low + 2 * x.spacing := by
    simp only [interval, spacing]
    split_ifs <;> omega
  unfold Interval.holds at h
  split_ifs at h <;> simp only [Bool.and_eq_true, decide_eq_true_eq] at h <;> omega

/-! ## Grids of few digits -/

section

variable (normal : leastNormal ≤ x.significand)

include normal

theorem leastNormal_mul_spacing_le : leastNormal * x.spacing ≤ x.decimalUnits := by
  have value : x.decimalUnits = x.significand * x.spacing := Nat.mul_assoc ..
  rw [value]
  exact Nat.mul_le_mul_right _ normal

theorem decimalUnits_ne_zero : x.decimalUnits ≠ 0 := by
  have dense := leastNormal_mul_spacing_le normal
  have positive := x.spacing_pos
  unfold leastNormal at dense
  omega

/-- Of a grid on which the value has few digits, at most one point lies in the interval. -/
theorem eq_of_holds_of_dvd {grid a b : Nat} (wide : x.decimalUnits < 10 ^ reliableLength * grid)
    (ha : x.interval.holds a = true) (hb : x.interval.holds b = true) (da : grid ∣ a)
    (db : grid ∣ b) : a = b := by
  have narrow : x.spacing < grid := by
    have dense := leastNormal_mul_spacing_le normal
    unfold leastNormal at dense
    unfold reliableLength at wide
    omega
  have neara := near_of_holds ha
  have nearb := near_of_holds hb
  obtain ⟨i, rfl⟩ := da
  obtain ⟨j, rfl⟩ := db
  rcases Nat.lt_trichotomy i j with less | same | greater
  · have apart : grid * (i + 1) ≤ grid * j := Nat.mul_le_mul_left _ less
    rw [Nat.mul_succ] at apart
    omega
  · rw [same]
  · have apart : grid * (j + 1) ≤ grid * i := Nat.mul_le_mul_left _ greater
    rw [Nat.mul_succ] at apart
    omega

/-- A short decimal in the interval lies on the grid on which the value has as many digits. It may
be shorter than the value, when there is a power of ten between them; then it is too far away. -/
theorem placesLeft_le {n p : Nat} (short : n < 10 ^ reliableLength)
    (h : x.interval.holds (n * Nat.pow 10 p) = true) : x.placesLeft reliableLength ≤ p := by
  by_contra long
  have least : 10 ^ reliableLength * Nat.pow 10 p ≤ x.decimalUnits := by
    have digits := ten_pow_digitCount_le (decimalUnits_ne_zero normal)
    rw [placesLeft, countDigits_eq] at long
    have longer : 10 ^ (reliableLength + p + 1) ≤ 10 ^ digitCount x.decimalUnits :=
      Nat.pow_le_pow_right (by decide) (by omega)
    rw [Nat.pow_succ, Nat.pow_add] at longer
    rw [Nat.pow_eq]
    omega
  have most : n * Nat.pow 10 p ≤ (10 ^ reliableLength - 1) * Nat.pow 10 p :=
    Nat.mul_le_mul_right _ (Nat.le_pred_of_lt short)
  have positive : 0 < Nat.pow 10 p := Nat.pow_pos (by decide)
  have dense := leastNormal_mul_spacing_le normal
  have near := near_of_holds h
  unfold leastNormal at dense
  unfold reliableLength at least most
  omega

/-! ## The shortest decimal -/

/-- A short multiple of `10 ^ -1074` in the interval is what the search for the shortest decimal
comes to: it ends on its grid at the latest, and finds no other point there or earlier. -/
theorem value_shortest_of_holds (tie : Tie) {n p : Nat} (short : n < 10 ^ reliableLength)
    (h : x.interval.holds (n * Nat.pow 10 p) = true) :
    (x.shortest tie).value = (n * Nat.pow 10 p : Nat) * 10 ^ (-1074 : Int) := by
  obtain ⟨length, c, -, hc, none, hs⟩ := exists_shortest_eq tie (decimalUnits_ne_zero normal)
  have multiple : Nat.pow 10 (x.placesLeft reliableLength) ∣ n * Nat.pow 10 p :=
    Nat.dvd_mul_left_of_dvd (Nat.pow_dvd_pow 10 (placesLeft_le normal short h)) n
  have reliable : length ≤ reliableLength := by
    by_contra long
    obtain ⟨i, hi⟩ := multiple
    rw [hi, Nat.mul_comm] at h
    exact onGrid_ne_none (Nat.pow_pos (by decide)) h
      (none reliableLength (by decide) (Nat.lt_of_not_le long))
  have coarser : Nat.pow 10 (x.placesLeft reliableLength) ∣ c * Nat.pow 10 (x.placesLeft length) :=
    Nat.dvd_mul_left_of_dvd (Nat.pow_dvd_pow 10 (Nat.sub_le_sub_left reliable _)) c
  have same : c * Nat.pow 10 (x.placesLeft length) = n * Nat.pow 10 p :=
    eq_of_holds_of_dvd normal (x.decimalUnits_lt reliableLength) (holds_of_onGrid hc) h coarser
      multiple
  rw [hs, Decimal.value_normalize, ← same, sub_eq_add_neg, zpow_add₀ (by norm_num), zpow_natCast,
    ← mul_assoc]
  simp

/-- **Short decimals come back.** The shortest decimal of the magnitude that a decimal of 15 digits
at most is rounded to has the value of this decimal. -/
theorem value_shortest_of_covers (tie : Tie) {d : Decimal}
    (short : d.coefficient < 10 ^ reliableLength) (least : -1074 ≤ d.exponent)
    (h : x.Covers (d.value * unit)) : (x.shortest tie).value = d.value := by
  obtain ⟨p, hp⟩ := Int.eq_ofNat_of_zero_le (by omega : 0 ≤ d.exponent + 1074)
  have value : d.value = (d.coefficient * Nat.pow 10 p : Nat) * 10 ^ (-1074 : Int) := by
    rw [Decimal.value, show d.exponent = p + -1074 by omega, zpow_add₀ (by norm_num), zpow_natCast,
      ← mul_assoc, Nat.pow_eq]
    push_cast
    rfl
  rw [value, covers_mul_unit_iff] at h
  rw [value]
  exact value_shortest_of_holds normal tie short h

end

/-- A magnitude that takes a great fraction has all its significant bits. -/
theorem leastNormal_le_of_covers {v : ℚ} (h : x.Covers v) (hv : significandEnd ≤ v) :
    leastNormal ≤ x.significand := by
  refine x.canonical.resolve_left fun least => ?_
  have below := lt_of_covers h least.le
  rw [Nat.pow_eq, pow_zero, Nat.mul_one] at below
  exact absurd hv below.not_ge

end DrillPost.Number.Magnitude
