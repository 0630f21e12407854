import DrillPost.Proofs.Number.Nearest

/-!
# How long shortest decimals are

The search for the shortest decimal never has to fall back on the value itself: of the decimals with
17 digits some lie in every interval. And it stops at the point when the number is whole, so the
shortest decimal of a number has places after the point exactly when the number is not whole.

* `Magnitude.exists_shortest_eq`: the grid on which the shortest decimal is found;
* `Magnitude.coefficient_shortest_le`: it has 17 digits at most;
* `Magnitude.exists_units_eq`: which multiples of powers of two are magnitudes;
* `Magnitude.places_shortest_eq_zero_iff`: it has no places exactly for whole numbers.
-/

namespace DrillPost.Number.Magnitude

variable {x y : Magnitude}

/-- The greatest number of digits of a shortest decimal. -/
def greatestLength : Nat := 17

/-- A grid with a point in the interval meets it: the points next to the value are as near away. -/
theorem onGrid_ne_none {tie : Tie} {grid c : Nat} (positive : 0 < grid)
    (h : x.interval.holds (c * grid) = true) : x.onGrid tie grid ≠ none := by
  have inside := holds_decimalUnits x
  have below : x.decimalUnits / grid * grid ≤ x.decimalUnits := Nat.div_mul_le_self ..
  have above : x.decimalUnits < (x.decimalUnits / grid + 1) * grid := by
    rw [← Nat.div_lt_iff_lt_mul positive]
    exact Nat.lt_succ_self _
  have neighbour : x.interval.holds (x.decimalUnits / grid * grid) = true ∨
      x.interval.holds ((x.decimalUnits / grid + 1) * grid) = true := by
    rcases Nat.lt_or_ge (x.decimalUnits / grid) c with after | before
    · exact .inr (Interval.holds_of_between inside h above.le (Nat.mul_le_mul_right _ after))
    · exact .inl (Interval.holds_of_between h inside (Nat.mul_le_mul_right _ before) below)
  intro none
  simp only [onGrid] at none
  split at none
  · rename_i low high
    simp [low, high] at neighbour
  · cases none
  · cases none
  · split_ifs at none
    split at none <;> cases none

/-- A grid finer than the interval on its shorter side meets the interval. -/
theorem exists_onGrid_eq_some (tie : Tie) {grid : Nat} (positive : 0 < grid)
    (near : 2 * grid < 4 * x.decimalUnits - x.interval.low) : ∃ c, x.onGrid tie grid = some c := by
  have split : grid * (x.decimalUnits / grid) + x.decimalUnits % grid = x.decimalUnits :=
    Nat.div_add_mod ..
  have rest : x.decimalUnits % grid < grid := Nat.mod_lt _ positive
  have high : 4 * x.decimalUnits + (4 * x.decimalUnits - x.interval.low) ≤ x.interval.high := by
    simp only [interval]
    split_ifs <;> omega
  have inside {n : Nat} (low : x.interval.low < 4 * n) (high : 4 * n < x.interval.high) :
      x.interval.holds n = true := by
    unfold Interval.holds
    split_ifs <;> simp only [Bool.and_eq_true, decide_eq_true_eq] <;> omega
  refine Option.ne_none_iff_exists'.1 ?_
  by_cases half : 2 * (x.decimalUnits % grid) ≤ grid
  · refine onGrid_ne_none (c := x.decimalUnits / grid) positive (inside ?_ ?_)
    · rw [Nat.mul_comm _ grid]
      omega
    · rw [Nat.mul_comm _ grid]
      omega
  · refine onGrid_ne_none (c := x.decimalUnits / grid + 1) positive (inside ?_ ?_)
    · rw [Nat.mul_comm _ grid, Nat.mul_succ]
      omega
    · rw [Nat.mul_comm _ grid, Nat.mul_succ]
      omega

/-- What is found on a grid is at most one above the value. -/
theorem le_of_onGrid {tie : Tie} {grid c : Nat} (h : x.onGrid tie grid = some c) :
    c ≤ x.decimalUnits / grid + 1 := by
  simp only [onGrid] at h
  split at h
  · cases h
  · cases h
    exact Nat.le_succ _
  · cases h
    exact Nat.le_refl _
  · split_ifs at h
    · cases h
      exact Nat.le_succ _
    · cases h
      exact Nat.le_refl _
    · split at h
      · cases h
        exact Nat.le_refl _
      · cases h
        exact Nat.add_le_add_left (Nat.le_of_lt_succ (Nat.mod_lt _ (by decide))) _

/-- Seventeen digits are enough: the interval is wider than that grid on its shorter side. -/
theorem exists_onGrid_greatestLength (tie : Tie) (h : x.decimalUnits ≠ 0) :
    ∃ c, x.onGrid tie (Nat.pow 10 (countDigits x.decimalUnits - greatestLength)) = some c := by
  refine exists_onGrid_eq_some tie (Nat.pow_pos (by decide)) ?_
  have spacing : x.decimalUnits = x.significand * (Nat.pow 2 x.exponent * Nat.pow 5 1074) := by
    simp only [decimalUnits, units, Nat.mul_assoc]
  have wide : 10 ^ 17 ≤ Nat.pow 2 x.exponent * Nat.pow 5 1074 :=
    calc 10 ^ 17 ≤ 5 ^ 25 := by decide
      _ ≤ Nat.pow 5 1074 := Nat.pow_le_pow_right (by decide) (by decide)
      _ ≤ _ := Nat.le_mul_of_pos_left _ (Nat.two_pow_pos _)
  have fits : x.significand < significandEnd := x.significand_lt
  rw [low_interval, countDigits_eq]
  generalize Nat.pow 2 x.exponent * Nat.pow 5 1074 = s at spacing wide
  have some_digit : x.significand ≠ 0 := by
    intro zero
    rw [zero, Nat.zero_mul] at spacing
    exact h spacing
  have below : x.significand * s ≤ 9007199254740991 * s :=
    Nat.mul_le_mul_right s (Nat.le_pred_of_lt fits)
  have above : 1 * s ≤ x.significand * s := Nat.mul_le_mul_right s (by omega)
  have least := ten_pow_digitCount_le h
  have long : 17 < digitCount x.decimalUnits := by
    refine (Nat.pow_lt_pow_iff_right (a := 10) (by decide)).1 ?_
    have := lt_ten_pow_digitCount x.decimalUnits
    omega
  rw [show digitCount x.decimalUnits = 17 + (digitCount x.decimalUnits - greatestLength) by
    unfold greatestLength; omega, Nat.pow_add] at least
  simp only [Nat.pow_eq]
  generalize 10 ^ (digitCount x.decimalUnits - greatestLength) = grid at least ⊢
  by_cases regular : x.exponent = 0 ∨ x.significand ≠ leastNormal
  · have low : x.lowEnd * s = 4 * (x.significand * s) - 2 * s := by
      rw [lowEnd_of_ne regular, Nat.sub_mul, Nat.mul_assoc]
    rw [low, spacing]
    omega
  · obtain ⟨positive, power⟩ := not_or.1 regular
    have low : x.lowEnd * s = 4 * (x.significand * s) - s := by
      simp [lowEnd, not_not.1 power, positive, Nat.sub_mul, Nat.mul_assoc]
    have value : x.significand * s = 4503599627370496 * s := by rw [not_not.1 power]
    rw [low, spacing]
    omega

/-- The number of places, in units of `10 ^ -1074`, that a decimal of so many digits leaves out. -/
def placesLeft (x : Magnitude) (length : Nat) : Nat := countDigits x.decimalUnits - length

/-- The value has so many digits in front of those that are left out. -/
theorem decimalUnits_lt (x : Magnitude) (length : Nat) :
    x.decimalUnits < 10 ^ length * Nat.pow 10 (x.placesLeft length) := by
  rw [Nat.pow_eq, ← Nat.pow_add]
  refine (lt_ten_pow_digitCount _).trans_le (Nat.pow_le_pow_right (by decide) ?_)
  rw [placesLeft, countDigits_eq]
  omega

/-- **Where the shortest decimal is found**: on the first grid that meets the interval, which has 17
digits at most. -/
theorem exists_shortest_eq (tie : Tie) (h : x.decimalUnits ≠ 0) :
    ∃ length c, length ≤ greatestLength ∧
      x.onGrid tie (Nat.pow 10 (x.placesLeft length)) = some c ∧
      (∀ shorter, 0 < shorter → shorter < length →
        x.onGrid tie (Nat.pow 10 (x.placesLeft shorter)) = none) ∧
      x.shortest tie = .normalize c ((x.placesLeft length : Int) - 1074) := by
  simp only [shortest, h, if_false]
  split
  · rename_i hit
    obtain ⟨before, k, after, split, hk, none⟩ := List.findSome?_eq_some_iff.1 hit
    obtain ⟨found, hc, heq⟩ := Option.map_eq_some_iff.1 hk
    obtain ⟨rfl, rfl⟩ := Prod.mk.inj heq
    have ordered : (before ++ k :: after).Pairwise (· < ·) := split ▸ List.pairwise_lt_range
    obtain ⟨-, later, -⟩ := List.pairwise_append.1 ordered
    have member (j : Nat) : j < 17 ↔ j ∈ before ++ k :: after := by rw [← split, List.mem_range]
    refine ⟨k + 1, found, (member k).2 (by simp), hc, fun shorter positive less => ?_, rfl⟩
    obtain ⟨j, rfl⟩ := Nat.exists_eq_succ_of_ne_zero positive.ne'
    have first : j ∈ before := by
      have bound : k < 17 := (member k).2 (by simp)
      rcases List.mem_append.1 ((member j).1 (by omega)) with inside | behind
      · exact inside
      · rcases List.mem_cons.1 behind with rfl | behind
        · omega
        · have := (List.pairwise_cons.1 later).1 j behind
          omega
    exact Option.map_eq_none_iff.1 (none j first)
  · rename_i none
    have missing := List.findSome?_eq_none_iff.1 none 16 (by decide)
    obtain ⟨c, found⟩ := exists_onGrid_greatestLength tie h
    cases (Option.map_eq_none_iff.1 missing).symm.trans found

theorem coefficient_normalize_le (c : Nat) (e : Int) : (Decimal.normalize c e).coefficient ≤ c := by
  fun_induction Decimal.normalize c e with
  | case1 c e h ih => exact ih.trans (Nat.div_le_self ..)
  | case2 c e h => exact Nat.le_refl c

theorem exponent_normalize_nonneg (c : Nat) {e : Int} (h : 0 ≤ e) :
    0 ≤ (Decimal.normalize c e).exponent := by
  fun_induction Decimal.normalize c e with
  | case1 c e hc ih => exact ih (by omega)
  | case2 c e hc =>
    dsimp only
    split_ifs
    · exact le_rfl
    · exact h

/-- **The shortest decimal has 17 digits at most**, or is a power of ten. -/
theorem coefficient_shortest_le (tie : Tie) (x : Magnitude) :
    (x.shortest tie).coefficient ≤ 10 ^ greatestLength := by
  by_cases h : x.decimalUnits = 0
  · simp [shortest, h]
  obtain ⟨length, c, most, hc, -, hs⟩ := exists_shortest_eq tie h
  rw [hs]
  refine (coefficient_normalize_le c _).trans ((le_of_onGrid hc).trans ?_)
  have bound := x.decimalUnits_lt length
  calc x.decimalUnits / Nat.pow 10 (x.placesLeft length) + 1 ≤ 10 ^ length :=
        Nat.div_lt_of_lt_mul (Nat.mul_comm .. ▸ bound)
    _ ≤ 10 ^ greatestLength := Nat.pow_le_pow_right (by decide) most

/-- The first digit of a shortest decimal is neither far in front of the point nor far behind it. -/
theorem countDigits_add_exponent_shortest (tie : Tie) (h : (x.shortest tie).coefficient ≠ 0) :
    -330 ≤ countDigits (x.shortest tie).coefficient + (x.shortest tie).exponent ∧
      countDigits (x.shortest tie).coefficient + (x.shortest tie).exponent ≤ 310 := by
  have covers := x.covers_shortest tie
  constructor
  · by_contra small
    have zero := eq_zero_of_covers covers (Decimal.lt_of_small (by omega))
    rw [zero, shortest_of_units_eq_zero tie units_zero] at h
    exact h rfl
  · by_contra great
    exact Decimal.not_covers_of_great h (by omega) covers

/-! ## Whole numbers -/

/-- A multiple of a power of two is a magnitude if its factor fits into a significand. -/
theorem exists_units_eq {e : Nat} (he : e ≤ 2045) {m : Nat} (hm : m < significandEnd) :
    ∃ x : Magnitude, x.units = m * Nat.pow 2 e := by
  induction e generalizing m with
  | zero => exact ⟨{ significand := m, exponent := 0, significand_lt := hm, canonical := .inl rfl },
      rfl⟩
  | succ e ih =>
    by_cases normal : leastNormal ≤ m
    · exact ⟨{ significand := m, exponent := e + 1, significand_lt := hm, exponent_le := he,
               canonical := .inr normal }, rfl⟩
    · obtain ⟨x, hx⟩ := ih (by omega) (m := 2 * m) (show 2 * m < 2 * leastNormal by omega)
      refine ⟨x, hx.trans ?_⟩
      simp only [Nat.pow_eq, Nat.pow_succ]
      ring

/-- A whole number that fits into a significand is a magnitude. -/
theorem exists_units_eq_mul_unit {n : Nat} (h : n < significandEnd) :
    ∃ x : Magnitude, x.units = n * unit := exists_units_eq (by decide) h

/-- So it is rounded to itself. -/
theorem exists_ofNat_eq_some {n : Nat} (h : n < significandEnd) :
    ∃ x : Magnitude, ofNat n = some x ∧ x.units = n * unit := by
  obtain ⟨x, hx⟩ := exists_units_eq_mul_unit h
  refine ⟨x, nearest_eq_some Nat.one_pos ?_, hx⟩
  rw [← hx, Nat.cast_one, div_one]
  exact x.covers_units

/-- **The quotient of whole numbers** is the magnitude whose interval it lies in. -/
theorem div_eq_some_iff {z : Magnitude} {m n : Nat} (hx : x.units = m * unit)
    (hy : y.units = n * unit) (hn : 0 < n) : x.div y = some z ↔ z.Covers (m / n * unit) := by
  have positive : 0 < y.units := by
    rw [hy]
    exact Nat.mul_pos hn unit_pos
  have some_unit : (unit : ℚ) ≠ 0 := by exact_mod_cast unit_pos.ne'
  have quotient : ((x.units * unit : Nat) : ℚ) / y.units = m / n * unit := by
    rw [hx, hy]
    generalize unit = u at some_unit
    push_cast
    field_simp
  rw [div, nearest_eq_some_iff positive, quotient]

theorem isWhole_iff : x.isWhole = true ↔ ∃ n, x.units = n * unit := by
  rw [isWhole, beq_iff_eq, ← Nat.dvd_iff_mod_eq_zero, dvd_def]
  simp only [Nat.mul_comm unit]

theorem unit_mul_five_pow : unit * Nat.pow 5 1074 = Nat.pow 10 1074 := by
  unfold unit
  generalize 1074 = k
  simp only [Nat.pow_eq, ← Nat.mul_pow, Nat.reduceMul]

theorem digitCount_mul_pow {n : Nat} (h : 0 < n) (k : Nat) :
    digitCount (n * Nat.pow 10 k) = k + digitCount n := by
  rw [digitCount_eq_add (Nat.le_mul_of_pos_left _ h)]
  simp only [Nat.pow_eq]
  rw [Nat.mul_div_cancel n (Nat.pow_pos (by decide))]

/-- The shortest decimal of a whole number has no places. -/
theorem exponent_shortest_nonneg (tie : Tie) (h : x.isWhole = true) :
    0 ≤ (x.shortest tie).exponent := by
  obtain ⟨n, hn⟩ := isWhole_iff.1 h
  by_cases zero : x.decimalUnits = 0
  · simp [shortest, zero]
  have value : x.decimalUnits = n * Nat.pow 10 1074 := by
    rw [decimalUnits, hn, Nat.mul_assoc, unit_mul_five_pow]
  have positive : 0 < n := by
    refine Nat.pos_of_ne_zero fun hz => zero ?_
    rw [value, hz, Nat.zero_mul]
  have digits : countDigits x.decimalUnits = 1074 + digitCount n := by
    rw [countDigits_eq, value, digitCount_mul_pow positive]
  obtain ⟨length, c, most, hc, none, hs⟩ := exists_shortest_eq tie zero
  have short : 1074 ≤ x.placesLeft length := by
    by_contra long
    -- the value itself lies on an earlier grid
    unfold placesLeft at long
    have some_digit : 0 < digitCount n := by
      rw [digitCount, dif_neg positive.ne']
      exact Nat.succ_pos _
    refine onGrid_ne_none (c := n) (Nat.pow_pos (by decide)) ?_
      (none (digitCount n) some_digit (by omega))
    rw [placesLeft, digits, Nat.add_sub_cancel, ← Nat.pow_eq, ← value]
    exact holds_decimalUnits x
  rw [hs]
  exact exponent_normalize_nonneg c (by omega)

/-- The value of a magnitude lies in no other interval. -/
theorem eq_of_holds_decimalUnits (h : x.interval.holds y.decimalUnits = true) : x = y := by
  rcases Nat.lt_trichotomy x.units y.units with lt | eq | gt
  · exact absurd (lt_of_holds lt h (holds_decimalUnits y)) (lt_irrefl _)
  · exact units_injective eq
  · exact absurd (lt_of_holds gt (holds_decimalUnits y) h) (lt_irrefl _)

theorem isWhole_of_le_exponent (h : 1074 ≤ x.exponent) : x.isWhole = true := by
  obtain ⟨e, he⟩ := Nat.exists_eq_add_of_le h
  refine isWhole_iff.2 ⟨x.significand * 2 ^ e, ?_⟩
  rw [units, he, Nat.pow_eq, Nat.pow_add, unit, Nat.pow_eq]
  ring

/-- A whole number in the interval of a magnitude that is not whole is small. -/
theorem lt_of_holds_mul {n : Nat} (small : x.exponent < 1074)
    (h : x.interval.holds (n * Nat.pow 10 1074) = true) : n < significandEnd := by
  have high : 4 * (n * Nat.pow 10 1074) ≤ x.interval.high := by
    unfold Interval.holds at h
    split_ifs at h <;> simp only [Bool.and_eq_true, decide_eq_true_eq] at h <;> omega
  have positive := five_pow_pos
  have grow : 2 ^ (x.exponent + 1) ≤ unit := Nat.pow_le_pow_right (by decide) small
  have fits : x.significand < significandEnd := x.significand_lt
  rw [high_interval, ← unit_mul_five_pow, ← Nat.mul_assoc, ← Nat.mul_assoc, ← Nat.mul_assoc] at high
  have high := Nat.le_of_mul_le_mul_right high positive
  have : 8 * n * unit ≤ x.highEnd * unit := by
    calc 8 * n * unit = 2 * (4 * n * unit) := by ring
      _ ≤ 2 * (x.highEnd * 2 ^ x.exponent) := Nat.mul_le_mul_left 2 high
      _ = x.highEnd * 2 ^ (x.exponent + 1) := by ring
      _ ≤ x.highEnd * unit := Nat.mul_le_mul_left _ grow
  have := Nat.le_of_mul_le_mul_right this unit_pos
  unfold highEnd at this
  omega

theorem eq_mul_of_zpow_eq {c n k : Nat} {e : Int} (he : 0 ≤ e)
    (h : (c : ℚ) * 10 ^ e = n * 10 ^ (-(k : Int))) : n = c * 10 ^ e.toNat * Nat.pow 10 k := by
  rw [← Int.toNat_of_nonneg he, zpow_neg, zpow_natCast, zpow_natCast,
    eq_mul_inv_iff_mul_eq₀ (by positivity)] at h
  exact_mod_cast h.symm

/-- Only whole numbers have shortest decimals with no places. -/
theorem isWhole_of_exponent_shortest (tie : Tie) (h : 0 ≤ (x.shortest tie).exponent) :
    x.isWhole = true := by
  by_cases large : 1074 ≤ x.exponent
  · exact isWhole_of_le_exponent large
  obtain ⟨n, value, holds⟩ := exists_holds_shortest tie x
  rw [eq_mul_of_zpow_eq h value] at holds
  obtain ⟨y, hy⟩ := exists_units_eq_mul_unit (lt_of_holds_mul (by omega) holds)
  have same : x = y := eq_of_holds_decimalUnits <| by
    rwa [decimalUnits, hy, Nat.mul_assoc, unit_mul_five_pow]
  exact isWhole_iff.2 ⟨_, (congrArg units same).trans hy⟩

/-- **A shortest decimal has no places exactly when the number is whole.** -/
theorem places_shortest_eq_zero_iff (tie : Tie) (x : Magnitude) :
    (x.shortest tie).places = 0 ↔ x.isWhole = true := by
  constructor
  · intro h
    refine isWhole_of_exponent_shortest tie ?_
    unfold Decimal.places at h
    omega
  · intro h
    have := exponent_shortest_nonneg tie h
    unfold Decimal.places
    omega

end DrillPost.Number.Magnitude
