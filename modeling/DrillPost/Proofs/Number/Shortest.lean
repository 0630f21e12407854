import DrillPost.Proofs.Number.Value

/-!
# Shortest decimals keep the order

Magnitudes have one form each, so their intervals lie one behind the other: they meet at their ends
at most, and then one of the two ends does not belong to its interval. The shortest decimal of a
magnitude lies in its interval. So greater magnitudes have greater decimals.

* `Magnitude.units_injective`: a magnitude has one form;
* `Magnitude.lt_of_holds`: intervals lie one behind the other;
* `Magnitude.exists_holds_shortest`: the shortest decimal lies in the interval;
* `Magnitude.value_shortest_lt`: it grows with the magnitude.
-/

namespace DrillPost.Number.Magnitude

variable {x y : Magnitude}

/-! ## One form for a magnitude -/

theorem units_lt_of_exponent_lt (h : x.exponent < y.exponent) : x.units < y.units := by
  have hx : x.significand < 2 * leastNormal := x.significand_lt
  have hy : leastNormal ≤ y.significand := y.canonical.resolve_left (by omega)
  calc x.units < 2 * leastNormal * 2 ^ x.exponent :=
        Nat.mul_lt_mul_of_pos_right hx (Nat.two_pow_pos _)
    _ = leastNormal * 2 ^ (x.exponent + 1) := by rw [Nat.pow_succ]; ring
    _ ≤ y.significand * 2 ^ y.exponent :=
        Nat.mul_le_mul hy (Nat.pow_le_pow_right (by decide) h)

theorem units_injective (h : x.units = y.units) : x = y := by
  have exponents : x.exponent = y.exponent := by
    rcases Nat.lt_trichotomy x.exponent y.exponent with hlt | heq | hgt
    · exact absurd h (units_lt_of_exponent_lt hlt).ne
    · exact heq
    · exact absurd h (units_lt_of_exponent_lt hgt).ne'
  have significands : x.significand = y.significand := by
    rw [units, units, exponents] at h
    exact Nat.eq_of_mul_eq_mul_right (Nat.two_pow_pos _) h
  cases x
  cases y
  simp_all

/-- Magnitudes with small exponents are small. -/
theorem units_lt (x : Magnitude) {e : Nat} (h : x.exponent ≤ e) :
    x.units < significandEnd * Nat.pow 2 e :=
  (Nat.mul_lt_mul_of_pos_right x.significand_lt (Nat.two_pow_pos _)).trans_le
    (Nat.mul_le_mul_left _ (Nat.pow_le_pow_right (by decide) h))

/-! ## Intervals -/

/-- Four times the significand at the lower end of the interval. -/
def lowEnd (x : Magnitude) : Nat :=
  4 * x.significand - if x.significand = leastNormal && x.exponent != 0 then 1 else 2

/-- Four times the significand at the upper end of the interval. -/
def highEnd (x : Magnitude) : Nat := 4 * x.significand + 2

theorem low_interval (x : Magnitude) :
    x.interval.low = x.lowEnd * (Nat.pow 2 x.exponent * Nat.pow 5 1074) := by
  simp only [interval, decimalUnits, units, lowEnd]
  generalize Nat.pow 5 1074 = k
  rw [Nat.sub_mul]
  split_ifs
  · ring_nf
  · ring_nf

theorem high_interval (x : Magnitude) :
    x.interval.high = x.highEnd * (Nat.pow 2 x.exponent * Nat.pow 5 1074) := by
  simp only [interval, decimalUnits, units, highEnd]
  generalize Nat.pow 5 1074 = k
  ring

theorem significand_lt_of_units_lt (h : x.units < y.units) (he : x.exponent = y.exponent) :
    x.significand < y.significand := by
  rw [units, units, he] at h
  exact Nat.lt_of_mul_lt_mul_right h

/-- Where the exponent grows, the significand ends just below twice the least one. -/
theorem highEnd_le_two_mul_lowEnd (h : x.exponent < y.exponent) :
    x.highEnd ≤ 2 * y.lowEnd ∧ (x.significand % 2 = 0 → x.highEnd < 2 * y.lowEnd) := by
  have hx : x.significand < 2 * leastNormal := x.significand_lt
  have hy : leastNormal ≤ y.significand := y.canonical.resolve_left (by omega)
  have even : leastNormal % 2 = 0 := rfl
  have positive : (y.exponent != 0) = true := by
    rw [bne_iff_ne]
    omega
  simp only [highEnd, lowEnd, positive, Bool.and_true, decide_eq_true_eq]
  split_ifs <;> omega

/-- The upper end of a lesser magnitude is not above the lower end of a greater one, and below it
when both belong to their intervals. -/
theorem high_le_low (h : x.units < y.units) :
    x.interval.high ≤ y.interval.low ∧
      (x.interval.closed = true → y.interval.closed = true →
        x.interval.high < y.interval.low) := by
  rw [high_interval, low_interval]
  have hk := five_pow_pos
  have hx : x.interval.closed = (x.significand % 2 == 0) := rfl
  have hy : y.interval.closed = (y.significand % 2 == 0) := rfl
  rw [hx, hy, beq_iff_eq, beq_iff_eq]
  generalize Nat.pow 5 1074 = k at hk ⊢
  simp only [Nat.pow_eq]
  have scale : 0 < 2 ^ x.exponent * k := Nat.mul_pos (Nat.two_pow_pos _) hk
  rcases Nat.lt_trichotomy x.exponent y.exponent with hlt | heq | hgt
  · obtain ⟨le, lt⟩ := highEnd_le_two_mul_lowEnd hlt
    have grow : 2 * (2 ^ x.exponent * k) ≤ 2 ^ y.exponent * k := by
      rw [← Nat.mul_assoc, ← Nat.pow_succ']
      exact Nat.mul_le_mul_right k (Nat.pow_le_pow_right (by decide) hlt)
    have reach : 2 * y.lowEnd * (2 ^ x.exponent * k) ≤ y.lowEnd * (2 ^ y.exponent * k) := by
      calc 2 * y.lowEnd * (2 ^ x.exponent * k) = y.lowEnd * (2 * (2 ^ x.exponent * k)) := by ring
        _ ≤ y.lowEnd * (2 ^ y.exponent * k) := Nat.mul_le_mul_left _ grow
    exact ⟨(Nat.mul_le_mul_right _ le).trans reach, fun even _ =>
      (Nat.mul_lt_mul_of_pos_right (lt even) scale).trans_le reach⟩
  · have less := significand_lt_of_units_lt h heq
    have le : x.highEnd ≤ y.lowEnd := by
      simp only [highEnd, lowEnd]
      split_ifs <;> omega
    have lt (ex : x.significand % 2 = 0) (ey : y.significand % 2 = 0) :
        x.highEnd < y.lowEnd := by
      simp only [highEnd, lowEnd]
      split_ifs <;> omega
    rw [← heq]
    exact ⟨Nat.mul_le_mul_right _ le, fun ex ey =>
      Nat.mul_lt_mul_of_pos_right (lt ex ey) scale⟩
  · exact absurd h (units_lt_of_exponent_lt hgt).asymm

/-- **Intervals lie one behind the other.** -/
theorem lt_of_holds (h : x.units < y.units) {m n : Nat} (hm : x.interval.holds m = true)
    (hn : y.interval.holds n = true) : m < n := by
  obtain ⟨le, lt⟩ := high_le_low h
  unfold Interval.holds at hm hn
  cases hx : x.interval.closed with
  | false =>
    simp only [hx, Bool.false_eq_true, if_false, Bool.and_eq_true, decide_eq_true_eq] at hm
    split_ifs at hn <;> simp only [Bool.and_eq_true, decide_eq_true_eq] at hn <;> omega
  | true =>
    simp only [hx, if_true, Bool.and_eq_true, decide_eq_true_eq] at hm
    split_ifs at hn with hy
    · have strict := lt hx hy
      simp only [Bool.and_eq_true, decide_eq_true_eq] at hn
      omega
    · simp only [Bool.and_eq_true, decide_eq_true_eq] at hn
      omega

/-- An interval has no gaps. -/
theorem Interval.holds_of_between {i : Interval} {a b m : Nat} (ha : i.holds a = true)
    (hb : i.holds b = true) (low : a ≤ m) (high : m ≤ b) : i.holds m = true := by
  unfold holds at *
  split_ifs at * <;> simp only [Bool.and_eq_true, decide_eq_true_eq] at * <;> omega

/-! ## The shortest decimal -/

/-- A decimal that is found on a grid lies in the interval. -/
theorem holds_of_onGrid {tie : Tie} {grid c : Nat} (h : x.onGrid tie grid = some c) :
    x.interval.holds (c * grid) = true := by
  simp only [onGrid] at h
  split at h
  · cases h
  · rename_i below _
    cases h
    exact below
  · rename_i _ above
    cases h
    exact above
  · rename_i below above
    -- both neighbours lie in the interval, and whichever is nearer is one of them
    split_ifs at h
    · cases h
      exact below
    · cases h
      exact above
    · cases tie with
      | away =>
        cases h
        exact above
      | toEven =>
        rcases Nat.mod_two_eq_zero_or_one (x.decimalUnits / grid) with even | odd
        · rw [even] at h
          cases h
          exact below
        · rw [odd] at h
          cases h
          exact above

/-- The value itself lies in the interval. -/
theorem holds_decimalUnits (x : Magnitude) : x.interval.holds x.decimalUnits = true := by
  have value : 4 * x.decimalUnits =
      4 * x.significand * (Nat.pow 2 x.exponent * Nat.pow 5 1074) := by
    simp only [decimalUnits, units]
    generalize Nat.pow 5 1074 = k
    ring
  have scale : 0 < Nat.pow 2 x.exponent * Nat.pow 5 1074 :=
    Nat.mul_pos (Nat.two_pow_pos _) five_pow_pos
  have low : x.lowEnd ≤ 4 * x.significand := Nat.sub_le _ _
  have high : 4 * x.significand < x.highEnd := Nat.lt_add_of_pos_right (by decide)
  have closed : x.interval.closed = (x.significand % 2 == 0) := rfl
  rw [Interval.holds, value, low_interval, high_interval, closed]
  generalize Nat.pow 2 x.exponent * Nat.pow 5 1074 = k at scale ⊢
  split_ifs with hc
  · simp only [Bool.and_eq_true, decide_eq_true_eq]
    exact ⟨Nat.mul_le_mul_right k low, Nat.mul_le_mul_right k high.le⟩
  · have strict : x.lowEnd < 4 * x.significand := by
      -- zero belongs to its interval, and other magnitudes have room below them
      have positive : 0 < x.significand := by
        refine Nat.pos_of_ne_zero fun hs => hc ?_
        rw [hs]
        rfl
      simp only [lowEnd]
      split_ifs <;> omega
    simp only [Bool.and_eq_true, decide_eq_true_eq]
    exact ⟨Nat.mul_lt_mul_of_pos_right strict scale, Nat.mul_lt_mul_of_pos_right high scale⟩

theorem shortest_of_units_eq_zero (tie : Tie) (h : x.units = 0) : x.shortest tie = ⟨0, 0⟩ := by
  have zero (k : Nat) : x.units * k = 0 := by rw [h, Nat.zero_mul]
  have value : x.decimalUnits = 0 := zero _
  simp only [shortest]
  rw [if_pos value]

/-- **The shortest decimal lies in the interval.** -/
theorem exists_holds_shortest (tie : Tie) (x : Magnitude) :
    ∃ n : Nat, (x.shortest tie).value = n * 10 ^ (-1074 : Int) ∧ x.interval.holds n = true := by
  by_cases hz : x.decimalUnits = 0
  · refine ⟨0, ?_, hz ▸ holds_decimalUnits x⟩
    simp [shortest, hz, Decimal.value]
  · simp only [shortest, hz, if_false]
    split
    · rename_i c places hit
      obtain ⟨k, -, hk⟩ := List.exists_of_findSome?_eq_some hit
      obtain ⟨c', hc, heq⟩ := Option.map_eq_some_iff.1 hk
      obtain ⟨rfl, rfl⟩ := Prod.mk.inj heq
      refine ⟨_, ?_, holds_of_onGrid hc⟩
      rw [Decimal.value_normalize, sub_eq_add_neg, zpow_add₀ (by norm_num), zpow_natCast,
        ← mul_assoc]
      simp
    · refine ⟨x.decimalUnits, ?_, holds_decimalUnits x⟩
      rw [Decimal.value_normalize]

/-- **The shortest decimal grows with the magnitude.** -/
theorem value_shortest_lt (tie : Tie) (h : x.units < y.units) :
    (x.shortest tie).value < (y.shortest tie).value := by
  obtain ⟨m, hm, holdsm⟩ := exists_holds_shortest tie x
  obtain ⟨n, hn, holdsn⟩ := exists_holds_shortest tie y
  have less : (m : ℚ) < n := by exact_mod_cast lt_of_holds h holdsm holdsn
  rw [hm, hn]
  exact mul_lt_mul_of_pos_right less (by positivity)

end DrillPost.Number.Magnitude
