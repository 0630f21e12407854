import DrillPost.Gcode.Number
import DrillPost.Proofs.Number.Rounding
import DrillPost.Proofs.Number.Shortest
import DrillPost.Proofs.Gcode.Words

/-!
# What written coordinates show

The text of a coordinate or height shows a rational number that is not quite the double it was
written for. Still it keeps the order: a greater double never shows a smaller number, and without a
fixed number of places it shows a greater one. With a fixed number of places it is at most half a
unit of the last place away from the double.

* `shown`: the number that a coordinate shows (`decimalValue_coordinate`);
* `shown_mono`, `shown_strictMono`: it keeps the order;
* `abs_shown_sub_value_le`: it is near the double.
-/

namespace DrillPost.Gcode

open Number

/-! ## Magnitudes -/

/-- The number that the text of a magnitude shows. -/
def shownMagnitude (precision : Option Nat) (x : Magnitude) : ℚ :=
  match precision with
  | some places => (halfEven (x.units * Nat.pow 10 places) Magnitude.unit : ℚ) / 10 ^ places
  | none => (x.shortest .away).value

/-- The text of a magnitude is a fraction with a point, which is the number it shows. -/
theorem exists_magnitude_eq_pointed (precision : Option Nat) (x : Magnitude) :
    ∃ n places, magnitude precision x = pointed n places ∧
      shownMagnitude precision x = (n : ℚ) / 10 ^ places := by
  cases precision with
  | some places => exact ⟨_, places, rfl, rfl⟩
  | none =>
    refine ⟨_, (x.shortest .away).places, ?_, (x.shortest .away).value_eq_div⟩
    rw [magnitude, writeDecimal_plain]
    rfl

theorem shownMagnitude_zero (precision : Option Nat) : shownMagnitude precision .zero = 0 := by
  cases precision with
  | some places => simp [shownMagnitude]
  | none =>
    rw [shownMagnitude, Magnitude.shortest_of_units_eq_zero .away Magnitude.units_zero]
    simp [Decimal.value]

variable (precision : Option Nat) {x y : Magnitude}

theorem shownMagnitude_strictMono (h : x.units < y.units) :
    shownMagnitude none x < shownMagnitude none y :=
  Magnitude.value_shortest_lt .away h

theorem shownMagnitude_pos (h : 0 < x.units) : 0 < shownMagnitude none x := by
  rw [← shownMagnitude_zero none]
  exact shownMagnitude_strictMono h

theorem shownMagnitude_mono (h : x.units ≤ y.units) :
    shownMagnitude precision x ≤ shownMagnitude precision y := by
  cases precision with
  | some places =>
    have rounded : halfEven (x.units * Nat.pow 10 places) Magnitude.unit ≤
        halfEven (y.units * Nat.pow 10 places) Magnitude.unit :=
      halfEven_mono (Nat.mul_le_mul_right _ h)
    simp only [shownMagnitude]
    gcongr
  | none =>
    rcases Nat.lt_or_eq_of_le h with hlt | heq
    · exact (shownMagnitude_strictMono hlt).le
    · rw [Magnitude.units_injective heq]

theorem shownMagnitude_nonneg (x : Magnitude) : 0 ≤ shownMagnitude precision x := by
  rw [← shownMagnitude_zero precision]
  exact shownMagnitude_mono precision (Nat.zero_le _)

/-- A fixed number of places moves a magnitude by at most half a unit of the last place. -/
theorem abs_shownMagnitude_sub_value_le (places : Nat) (x : Magnitude) :
    |shownMagnitude (some places) x - x.value| ≤ 1 / 2 / 10 ^ places := by
  have rounded := abs_halfEven_sub_le (n := x.units * Nat.pow 10 places) Magnitude.unit_pos
  have scale : (0 : ℚ) < 10 ^ places := by positivity
  have exact : ((x.units * Nat.pow 10 places : Nat) : ℚ) / Magnitude.unit =
      x.value * 10 ^ places := by
    rw [Magnitude.value, Nat.cast_mul, Nat.pow_eq, Nat.cast_pow]
    push_cast
    ring
  have difference : shownMagnitude (some places) x - x.value =
      ((halfEven (x.units * Nat.pow 10 places) Magnitude.unit : ℚ) - x.value * 10 ^ places) /
        10 ^ places := by
    rw [shownMagnitude, sub_div, mul_div_cancel_right₀ _ scale.ne']
  rw [exact] at rounded
  rw [difference, abs_div, abs_of_pos scale]
  exact div_le_div_of_nonneg_right rounded scale.le

/-! ## Coordinates and heights -/

/-- The number that a coordinate or height shows. -/
def shown (precision : Option Nat) : Binary64 → ℚ
  | .finite true x => -shownMagnitude precision x
  | .finite false x => shownMagnitude precision x
  | _ => 0

/-- A row of zeros shows zero. -/
theorem digitsValue_eq_zero {ds : Text} (h : ∀ c ∈ ds, c = '0') : digitsValue ds = 0 := by
  rw [List.eq_replicate_of_mem h, digitsValue_eq_ofDigitChars, Nat.ofDigitChars_replicate_zero,
    Nat.mul_zero]

theorem eq_zero_of_showsNonzero_eq_false {n places : Nat}
    (h : showsNonzero (pointed n places) = false) : n = 0 := by
  have plain : ∀ c ∈ pointed n places, isDigit c = true → c = '0' := by
    intro c hc hd
    have hf := List.any_eq_false.1 h c hc
    simp only [Bool.and_eq_true, bne_iff_ne, ne_eq, not_and, not_not] at hf
    by_contra hne
    rw [hf hne] at hd
    exact absurd hd (by decide)
  unfold pointed at plain
  split_ifs at plain
  · rw [← digitsValue_digits n]
    exact digitsValue_eq_zero fun c hc => plain c hc (isDigit_of_mem_digits hc)
  · have whole : n / Nat.pow 10 places = 0 := by
      rw [← digitsValue_digits (n / Nat.pow 10 places)]
      exact digitsValue_eq_zero fun c hc =>
        plain c (List.mem_append_left _ hc) (isDigit_of_mem_digits hc)
    have fraction : n % Nat.pow 10 places = 0 := by
      rw [← digitsValue_paddedDigits places (n % Nat.pow 10 places)]
      exact digitsValue_eq_zero fun c hc =>
        plain c (List.mem_append_right _ (List.mem_cons_of_mem _ hc))
          (isDigit_of_mem_paddedDigits hc)
    rw [← Nat.div_add_mod n (Nat.pow 10 places), whole, fraction]
    rfl

/-- **The text of a coordinate or height** shows this number. -/
theorem decimalValue_coordinate {z : Binary64} (h : z.isFinite = true) :
    decimalValue (coordinate precision z) = some (shown precision z) := by
  cases z with
  | nan => cases h
  | infinite negative => cases h
  | finite negative x =>
    obtain ⟨n, places, text, number⟩ := exists_magnitude_eq_pointed precision x
    cases negative with
    | false =>
      simp only [coordinate, shown, text, number, Bool.false_and, Bool.false_eq_true, if_false]
      exact decimalValue_pointed n places
    | true =>
      simp only [coordinate, shown, text, number, Bool.true_and]
      cases hs : showsNonzero (pointed n places) with
      | true => exact decimalValue_neg_pointed n places
      | false =>
        -- the sign is left out, and zero is its own negative
        have zero := eq_zero_of_showsNonzero_eq_false hs
        rw [if_neg Bool.false_ne_true, decimalValue_pointed, zero]
        simp

section

variable {a b : Binary64}

/-- A greater number does not show less. -/
theorem shown_mono (ha : a.isFinite = true) (hb : b.isFinite = true) (h : a.units ≤ b.units) :
    shown precision a ≤ shown precision b := by
  rcases a with _ | _ | ⟨_ | _, x⟩
  · cases ha
  · cases ha
  · rcases b with _ | _ | ⟨_ | _, y⟩
    · cases hb
    · cases hb
    · exact shownMagnitude_mono precision (Int.ofNat_le.1 h)
    · -- both are zero
      have units : x.units = Magnitude.zero.units ∧ y.units = Magnitude.zero.units := by
        simp only [Binary64.units, Magnitude.units_zero] at h ⊢
        omega
      rw [Magnitude.units_injective units.1, Magnitude.units_injective units.2]
      simp [shown, shownMagnitude_zero]
  · rcases b with _ | _ | ⟨_ | _, y⟩
    · cases hb
    · cases hb
    · calc -shownMagnitude precision x ≤ 0 := neg_nonpos.2 (shownMagnitude_nonneg precision x)
        _ ≤ shownMagnitude precision y := shownMagnitude_nonneg precision y
    · have magnitudes : y.units ≤ x.units := by
        simp only [Binary64.units] at h
        omega
      exact neg_le_neg (shownMagnitude_mono precision magnitudes)

/-- Without a fixed number of places, a greater number shows more. -/
theorem shown_strictMono (ha : a.isFinite = true) (hb : b.isFinite = true)
    (h : a.units < b.units) : shown none a < shown none b := by
  rcases a with _ | _ | ⟨_ | _, x⟩
  · cases ha
  · cases ha
  · rcases b with _ | _ | ⟨_ | _, y⟩
    · cases hb
    · cases hb
    · exact shownMagnitude_strictMono (Int.ofNat_lt.1 h)
    · simp only [Binary64.units] at h
      omega
  · rcases b with _ | _ | ⟨_ | _, y⟩
    · cases hb
    · cases hb
    · rcases Nat.eq_zero_or_pos x.units with hx | hx
      · have hy : 0 < y.units := by
          simp only [Binary64.units] at h
          omega
        calc -shownMagnitude none x ≤ 0 := neg_nonpos.2 (shownMagnitude_nonneg none x)
          _ < shownMagnitude none y := shownMagnitude_pos hy
      · calc -shownMagnitude none x < 0 := neg_neg_of_pos (shownMagnitude_pos hx)
          _ ≤ shownMagnitude none y := shownMagnitude_nonneg none y
    · have magnitudes : y.units < x.units := by
        simp only [Binary64.units] at h
        omega
      exact neg_lt_neg (shownMagnitude_strictMono magnitudes)

/-- With a fixed number of places, what is shown is at most half a unit of the last one away. -/
theorem abs_shown_sub_value_le (places : Nat) (ha : a.isFinite = true) :
    |shown (some places) a - a.value| ≤ 1 / 2 / 10 ^ places := by
  rcases a with _ | _ | ⟨_ | _, x⟩
  · cases ha
  · cases ha
  · exact abs_shownMagnitude_sub_value_le places x
  · have reflected : shown (some places) (.finite true x) - (Binary64.finite true x).value =
        -(shownMagnitude (some places) x - x.value) := by
      simp only [shown, Binary64.value, Binary64.units, Magnitude.value]
      push_cast
      ring
    rw [reflected, abs_neg]
    exact abs_shownMagnitude_sub_value_le places x

/-- Numbers that show the same with a fixed number of places are at most a unit of the last one
apart. -/
theorem abs_value_sub_value_le (places : Nat) (ha : a.isFinite = true) (hb : b.isFinite = true)
    (h : shown (some places) a = shown (some places) b) :
    |a.value - b.value| ≤ 1 / 10 ^ places := by
  have near := abs_shown_sub_value_le places ha
  have nearb := abs_shown_sub_value_le places hb
  rw [abs_sub_comm, h] at near
  calc |a.value - b.value| ≤
        |a.value - shown (some places) b| + |shown (some places) b - b.value| := abs_sub_le _ _ _
    _ ≤ 1 / 2 / 10 ^ places + 1 / 2 / 10 ^ places := add_le_add near nearb
    _ = 1 / 10 ^ places := by ring

end

end DrillPost.Gcode
