import DrillPost.Proofs.Number.Digits

/-!
# The values of numbers and of their texts

Decimals and doubles stand for rational numbers, and so does the text of a decimal with an optional
minus sign.

* `Decimal.value`, `Magnitude.value`, `Binary64.value`: the rational that a number stands for;
* `decimalValue`: the rational that a text writes;
* `Decimal.value_normalize`: cutting zeros off a decimal keeps its value;
* `decimalValue_pointed`, `Decimal.value_eq_div`: the value of a fraction with a point, and of a
  decimal as such a fraction.
-/

namespace DrillPost.Number

/-! ## Numbers -/

/-- The rational that a decimal stands for. -/
def Decimal.value (d : Decimal) : ℚ := d.coefficient * 10 ^ d.exponent

/-- The rational that a magnitude stands for. -/
def Magnitude.value (x : Magnitude) : ℚ := x.units / Magnitude.unit

/-- The rational that a finite number stands for; zero for the others. -/
def Binary64.value (x : Binary64) : ℚ := x.units / Magnitude.unit

theorem Magnitude.unit_pos : 0 < Magnitude.unit := Nat.two_pow_pos 1074

/-- The number of multiples of `10 ^ -1074` in a multiple of `2 ^ -1074` is positive. -/
theorem Magnitude.five_pow_pos : 0 < Nat.pow 5 1074 := Nat.pow_pos (by decide)

section

variable {a b : Binary64} (ha : a.isFinite = true) (hb : b.isFinite = true)

include ha hb

/-- Finite numbers are compared by their units. -/
theorem Binary64.lt_iff_units_lt : a.lt b = true ↔ a.units < b.units := by
  cases a <;> cases b <;> simp_all [isFinite, lt, rank]

theorem Binary64.le_iff_units_le : a.le b = true ↔ a.units ≤ b.units := by
  cases a <;> cases b <;> simp_all [isFinite, le, rank]

theorem Binary64.agrees_iff_units_eq : a.agrees b = true ↔ a.units = b.units := by
  rw [agrees, Bool.and_eq_true, le_iff_units_le ha hb, le_iff_units_le hb ha]
  exact le_antisymm_iff.symm

end

theorem Binary64.value_lt_value_iff {a b : Binary64} : a.value < b.value ↔ a.units < b.units := by
  have unit : (0 : ℚ) < Magnitude.unit := Nat.cast_pos.2 Magnitude.unit_pos
  rw [value, value, div_lt_div_iff_of_pos_right unit, Int.cast_lt]

@[simp] theorem Binary64.value_zero : zero.value = 0 := by
  have units : zero.units = 0 := rfl
  rw [value, units, Int.cast_zero, zero_div]

theorem Binary64.value_le_value_iff {a b : Binary64} : a.value ≤ b.value ↔ a.units ≤ b.units := by
  rw [← not_lt, value_lt_value_iff, not_lt]

/-- Cutting the zeros off a decimal keeps its value. -/
theorem Decimal.value_normalize (c : Nat) (x : Int) : (normalize c x).value = c * 10 ^ x := by
  fun_induction normalize c x with
  | case1 c x h ih =>
    have exact : c / 10 * 10 = c := Nat.div_mul_cancel (Nat.dvd_of_mod_eq_zero h.2)
    have cast : ((c / 10 : Nat) : ℚ) * 10 = c := by exact_mod_cast exact
    rw [ih, zpow_add_one₀ (by norm_num), ← cast]
    ring
  | case2 c x h =>
    by_cases hc : c = 0
    · simp [value, hc]
    · simp [value, hc]

/-! ## Texts -/

/-- The rational that a text writes: digits with an optional point and an optional exponent, and an
optional minus sign in front. -/
def decimalValue : Text → Option ℚ
  | '-' :: t => (Decimal.scan t).map fun d => -d.value
  | t => (Decimal.scan t).map Decimal.value

theorem decimalValue_of_ne {c : Char} (h : c ≠ '-') (t : Text) :
    decimalValue (c :: t) = (Decimal.scan (c :: t)).map Decimal.value := by
  unfold decimalValue
  split
  · rename_i heq
    exact absurd (List.cons.inj heq).1 h
  · rfl

theorem value_scan_pointed (n places : Nat) :
    (Decimal.scan (pointed n places)).map Decimal.value = some ((n : ℚ) / 10 ^ places) := by
  rw [scan_pointed, Option.map_some, Decimal.value, zpow_neg, zpow_natCast]
  rfl

/-- A fraction that is written with a point has its value. -/
theorem decimalValue_pointed (n places : Nat) :
    decimalValue (pointed n places) = some ((n : ℚ) / 10 ^ places) := by
  cases h : pointed n places with
  | nil =>
    have hs := value_scan_pointed n places
    rw [h] at hs
    cases hs
  | cons c t =>
    have hc : c ≠ '-' := by
      rintro rfl
      have member : '-' ∈ pointed n places := h ▸ List.mem_cons_self
      rcases mem_pointed member with hd | hd
      · exact absurd hd (by decide)
      · exact absurd hd (by decide)
    rw [decimalValue_of_ne hc, ← h, value_scan_pointed]

theorem decimalValue_neg_pointed (n places : Nat) :
    decimalValue ('-' :: pointed n places) = some (-((n : ℚ) / 10 ^ places)) := by
  have hs := congrArg (Option.map fun v => -v) (value_scan_pointed n places)
  rw [Option.map_map] at hs
  exact hs

/-- The rational of a decimal that is written out. -/
theorem Decimal.value_eq_div (d : Decimal) :
    d.value = ((d.coefficient * Nat.pow 10 d.exponent.toNat : Nat) : ℚ) / 10 ^ d.places := by
  rcases Int.le_total 0 d.exponent with h | h
  · have places : d.places = 0 := by simp [places, h]
    have exponent : (10 : ℚ) ^ d.exponent = 10 ^ d.exponent.toNat := by
      rw [← zpow_natCast, Int.toNat_of_nonneg h]
    rw [value, places, exponent]
    simp
  · have whole : d.exponent.toNat = 0 := Int.toNat_of_nonpos h
    have exponent : (10 : ℚ) ^ d.exponent = (10 ^ d.places)⁻¹ := by
      rw [← zpow_natCast, ← zpow_neg, places, Int.toNat_of_nonneg (by omega), neg_neg]
    rw [value, whole, exponent]
    simp [div_eq_mul_inv]

end DrillPost.Number
