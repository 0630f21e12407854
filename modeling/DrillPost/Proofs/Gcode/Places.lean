import DrillPost.Settings.Validation
import DrillPost.Proofs.Number.Places
import DrillPost.Proofs.Excellon.Integer
import DrillPost.Proofs.Gcode.Coordinates
import DrillPost.Proofs.Gcode.Grammar

/-!
# Coordinates with a fixed number of places

A coordinate is rounded twice before it is written with a fixed number of places: to a double, and
from this to a decimal. The first error is so small that it does not carry the second rounding over
a half, unless the coordinate lies on the half itself. So what is written is at most half a unit of
the last place away from what the coordinate counts, and with five places or more it is just that.

* `writesFixed_pointed`, `writesFixed_coordinate`: how a finite number looks with a fixed number of
  places;
* `abs_shownMagnitude_sub_le_quarter`: the error of both roundings;
* `abs_shownMagnitude_sub_le_of_le`: it does not carry over a half;
* `placesShown_eq`: with places enough there is none;
* `writesFixed_hundredThousandths`: coordinates with a fixed number of places.
-/

namespace DrillPost.Gcode

open Number
open Excellon (signed natAbs_signed signed_natAbs)

/-! ## The text -/

theorem signed_mul (negative : Bool) (n k : Nat) :
    signed negative (n * k) = signed negative n * k := by
  cases negative <;> simp [signed]

/-- Numbers with the same sign are as far apart as they are without it. -/
theorem abs_signed_div_sub (negative : Bool) (m n : Nat) (a b : ℚ) :
    |(signed negative m : ℚ) / a - signed negative n / b| = |(m : ℚ) / a - n / b| := by
  cases negative with
  | false => rfl
  | true =>
    simp only [signed, if_true, Int.cast_neg, Int.cast_natCast]
    rw [neg_div, neg_div, neg_sub_neg, abs_sub_comm]

/-- The number of units of the last place that a magnitude is rounded to. -/
def placesShown (places : Nat) (x : Magnitude) : Nat :=
  halfEven (x.units * Nat.pow 10 places) Magnitude.unit

theorem shownMagnitude_some (places : Nat) (x : Magnitude) :
    shownMagnitude (some places) x = (placesShown places x : ℚ) / 10 ^ places := rfl

/-- A fraction with a minus sign in front of what is shown as less than zero, so zero never has
one. -/
theorem writesFixed_pointed (negative : Bool) (n places : Nat) :
    WritesFixed places (signed negative n)
      (if negative && showsNonzero (pointed n places) then '-' :: pointed n places
        else pointed n places) := by
  have digits : WritesPlaces places (signed negative n).natAbs (pointed n places) := by
    rw [natAbs_signed]
    exact writesPlaces_pointed places n
  cases negative with
  | false => exact .plain (Int.natCast_nonneg _) digits
  | true =>
    simp only [Bool.true_and]
    split_ifs with nonzero
    · have positive : n ≠ 0 := by
        intro zero
        rw [zero, showsNonzero_pointed_zero] at nonzero
        cases nonzero
      refine .minus ?_ digits
      rw [signed, if_pos rfl]
      omega
    · have zero : n = 0 := eq_zero_of_showsNonzero_eq_false (Bool.eq_false_of_not_eq_true nonzero)
      refine .plain ?_ digits
      rw [zero]
      rfl

/-- **A finite number with a fixed number of places.** -/
theorem writesFixed_coordinate (places : Nat) (negative : Bool) (x : Magnitude) :
    WritesFixed places (signed negative (placesShown places x))
      (coordinate (some places) (.finite negative x)) :=
  writesFixed_pointed negative (placesShown places x) places

/-! ## Two roundings in sequence -/

section

variable {n : Nat} {x : Magnitude}
  (covers : x.Covers ((n : ℚ) / 10 ^ coordinatePlaces * Magnitude.unit))

include covers

/-- The error of both roundings is half a unit of the last place, and that of the double. -/
theorem abs_shownMagnitude_sub_le_add (places : Nat) :
    |shownMagnitude (some places) x - n / 10 ^ coordinatePlaces| ≤
      1 / 2 / 10 ^ places + ((n : ℚ) / 10 ^ coordinatePlaces + 1) / 2 ^ 52 :=
  calc |shownMagnitude (some places) x - n / 10 ^ coordinatePlaces|
      ≤ |shownMagnitude (some places) x - x.value| + |x.value - n / 10 ^ coordinatePlaces| :=
        abs_sub_le _ _ _
    _ ≤ _ := add_le_add (abs_shownMagnitude_sub_value_le places x)
        (Magnitude.abs_value_sub_le_of_covers (by positivity) covers)

variable (small : n ≤ 10 ^ 10)

include small

omit covers in
/-- The error of the double is at most a quarter of a unit of the tenth place. -/
theorem double_error_le :
    ((n : ℚ) / 10 ^ coordinatePlaces + 1) / 2 ^ 52 ≤ 1 / 4 / 10 ^ greatestPrecision := by
  have bound : (n : ℚ) ≤ 10 ^ 10 := by exact_mod_cast small
  rw [coordinatePlaces, greatestPrecision, div_add_one (by norm_num), div_div, div_div,
    div_le_div_iff₀ (by norm_num) (by norm_num)]
  linarith

/-- **The error of both roundings**, in units of any place up to the tenth. -/
theorem abs_shownMagnitude_sub_le_quarter {places finer : Nat} {b : ℚ}
    (fixed : finer ≤ greatestPrecision) (half : 1 / 2 / 10 ^ places = b / 10 ^ finer) :
    |shownMagnitude (some places) x - n / 10 ^ coordinatePlaces| ≤ (b + 1 / 4) / 10 ^ finer := by
  have power : (10 : ℚ) ^ finer ≤ 10 ^ greatestPrecision := pow_le_pow_right₀ (by norm_num) fixed
  calc |shownMagnitude (some places) x - n / 10 ^ coordinatePlaces|
      ≤ 1 / 2 / 10 ^ places + ((n : ℚ) / 10 ^ coordinatePlaces + 1) / 2 ^ 52 :=
        abs_shownMagnitude_sub_le_add covers places
    _ ≤ b / 10 ^ finer + 1 / 4 / 10 ^ greatestPrecision :=
        add_le_add half.le (double_error_le small)
    _ ≤ b / 10 ^ finer + 1 / 4 / 10 ^ finer :=
        add_le_add_right (div_le_div_of_nonneg_left (by norm_num) (by positivity) power) _
    _ = (b + 1 / 4) / 10 ^ finer := (add_div _ _ _).symm

/-- **Few places.** A coordinate and the halves between what is shown are multiples of half a unit
of the fifth place. The error of the double is less than that, so it does not carry over a half. -/
theorem abs_shownMagnitude_sub_le_of_le {places : Nat} (few : places ≤ coordinatePlaces) :
    |shownMagnitude (some places) x - n / 10 ^ coordinatePlaces| ≤ 1 / 2 / 10 ^ places := by
  obtain ⟨k, hk⟩ := Nat.exists_eq_add_of_le few
  have scale : (10 : ℚ) ^ coordinatePlaces = 10 ^ places * 10 ^ k := by rw [hk, pow_add]
  have zeros : (0 : ℚ) < 10 ^ k := by positivity
  have fifth : (0 : ℚ) < 10 ^ coordinatePlaces := by positivity
  have half : (1 / 2 / 10 ^ places : ℚ) = 10 ^ k / 2 / 10 ^ coordinatePlaces := by
    rw [scale, ← mul_div_mul_right _ _ zeros.ne', div_mul_eq_mul_div, one_mul]
  have error := abs_shownMagnitude_sub_le_quarter covers small (by decide) half
  -- in units of the fifth place, both are whole numbers
  have distance : |shownMagnitude (some places) x - n / 10 ^ coordinatePlaces| =
      |(placesShown places x : ℚ) * 10 ^ k - n| / 10 ^ coordinatePlaces := by
    rw [shownMagnitude_some, ← mul_div_mul_right _ _ zeros.ne', ← scale, ← sub_div, abs_div,
      abs_of_pos fifth]
  rw [distance, div_le_div_iff_of_pos_right fifth] at error
  rw [distance, half, div_le_div_iff_of_pos_right fifth]
  have below : 2 * |(placesShown places x : ℚ) * 10 ^ k - n| < 10 ^ k + 1 := by linarith
  have whole : 2 * |(placesShown places x * 10 ^ k - n : Int)| ≤ 10 ^ k :=
    Int.lt_add_one_iff.1 (by exact_mod_cast below)
  have most : 2 * |(placesShown places x : ℚ) * 10 ^ k - n| ≤ 10 ^ k := by exact_mod_cast whole
  linarith

/-- **Places enough.** What is shown and the coordinate are multiples of a unit of the last place,
and both errors are less than this together. -/
theorem placesShown_eq {k : Nat} (fixed : coordinatePlaces + k ≤ greatestPrecision) :
    placesShown (coordinatePlaces + k) x = n * 10 ^ k := by
  have scale : (10 : ℚ) ^ (coordinatePlaces + k) = 10 ^ coordinatePlaces * 10 ^ k := pow_add _ _ _
  have zeros : (0 : ℚ) < 10 ^ k := by positivity
  have last : (0 : ℚ) < 10 ^ (coordinatePlaces + k) := by positivity
  have error := abs_shownMagnitude_sub_le_quarter covers small fixed rfl
  rw [shownMagnitude_some, ← mul_div_mul_right (n : ℚ) _ zeros.ne', ← scale, ← sub_div, abs_div,
    abs_of_pos last, div_le_div_iff_of_pos_right last] at error
  have below : |(placesShown (coordinatePlaces + k) x : ℚ) - n * 10 ^ k| < 1 :=
    error.trans_lt (by norm_num)
  have none : (placesShown (coordinatePlaces + k) x - n * 10 ^ k : Int) = 0 :=
    Int.abs_lt_one_iff.1 (by exact_mod_cast below)
  exact_mod_cast sub_eq_zero.1 none

/-- With any number of places, what is shown is at most half a unit of the last one away. -/
theorem abs_shownMagnitude_sub_le {places : Nat} (fixed : places ≤ greatestPrecision) :
    |shownMagnitude (some places) x - n / 10 ^ coordinatePlaces| ≤ 1 / 2 / 10 ^ places := by
  rcases Nat.le_total places coordinatePlaces with few | many
  · exact abs_shownMagnitude_sub_le_of_le covers small few
  · obtain ⟨k, rfl⟩ := Nat.exists_eq_add_of_le many
    have zeros : (10 : ℚ) ^ k ≠ 0 := by positivity
    have exact : shownMagnitude (some (coordinatePlaces + k)) x = n / 10 ^ coordinatePlaces := by
      rw [shownMagnitude_some, placesShown_eq covers small fixed, pow_add, Nat.cast_mul,
        Nat.cast_pow, Nat.cast_ofNat, mul_div_mul_right _ _ zeros]
    rw [exact, sub_self, abs_zero]
    positivity

end

/-! ## Coordinates -/

section

variable {i : Int} (small : i.natAbs ≤ 10 ^ 10)

include small

/-- The double of a coordinate of ten digits. -/
theorem exists_hundredThousandths_covers_of_le :
    ∃ x, hundredThousandths i = .finite (i < 0) x ∧
      x.Covers ((i.natAbs : ℚ) / 10 ^ coordinatePlaces * Magnitude.unit) :=
  exists_hundredThousandths_covers (small.trans_lt (by decide))

/-- With five places or more, a coordinate has its hundred-thousandths and zeros behind them. -/
theorem writesFixed_add {k : Nat} (fixed : coordinatePlaces + k ≤ greatestPrecision) :
    WritesFixed (coordinatePlaces + k) (i * 10 ^ k)
      (coordinate (some (coordinatePlaces + k)) (hundredThousandths i)) := by
  obtain ⟨x, double, covers⟩ := exists_hundredThousandths_covers_of_le small
  have text := writesFixed_coordinate (coordinatePlaces + k) (i < 0) x
  rw [placesShown_eq covers small fixed, signed_mul, signed_natAbs] at text
  rw [double]
  exact_mod_cast text

/-- **Coordinates with a fixed number of places are rounded as they should be.** A coordinate that
counts up to `10 ^ 10` hundred-thousandths is written with exactly as many places as the settings
ask for, and with neither a point nor places if that is zero. What is read back is at most half a
unit of the last place away from what the coordinate counts, and a minus sign stands in front of it
just if it is less than zero. With five places or more it is what the coordinate counts, and the
sixth place and those behind it are zeros. -/
theorem writesFixed_hundredThousandths {places : Nat} (fixed : places ≤ greatestPrecision) :
    let t := coordinate (some places) (hundredThousandths i)
    (∃ m : Int, WritesFixed places m t ∧ decimalValue t = some ((m : ℚ) / 10 ^ places) ∧
      |(m : ℚ) / 10 ^ places - i / 10 ^ coordinatePlaces| ≤ 1 / 2 / 10 ^ places) ∧
    (coordinatePlaces ≤ places →
      decimalValue t = some ((i : ℚ) / 10 ^ coordinatePlaces) ∧
      t = coordinate (some coordinatePlaces) (hundredThousandths i) ++
        List.replicate (places - coordinatePlaces) '0') := by
  refine ⟨?_, fun many => ?_⟩
  · obtain ⟨x, double, covers⟩ := exists_hundredThousandths_covers_of_le small
    have text := writesFixed_coordinate places (i < 0) x
    have near := abs_shownMagnitude_sub_le covers small fixed
    rw [shownMagnitude_some, ← abs_signed_div_sub (i < 0), signed_natAbs] at near
    rw [double]
    exact ⟨_, text, text.decimalValue_eq, near⟩
  · obtain ⟨k, rfl⟩ := Nat.exists_eq_add_of_le many
    have zeros : (10 : ℚ) ^ k ≠ 0 := by positivity
    have text := writesFixed_add small fixed
    have five : WritesFixed coordinatePlaces i
        (coordinate (some coordinatePlaces) (hundredThousandths i)) := by
      simpa using writesFixed_add small (k := 0) (by decide)
    refine ⟨?_, ?_⟩
    · rw [text.decimalValue_eq, Int.cast_mul, Int.cast_pow, Int.cast_ofNat, pow_add,
        mul_div_mul_right _ _ zeros]
    · rw [Nat.add_sub_cancel_left]
      exact text.unique (five.append_zeros (by decide) k)

end

/-- Less than half a unit of the last place below zero is written as zero, and zero has no sign. -/
theorem writesFixed_hundredThousandths_zero :
    let i : Int := -4
    i.natAbs ≤ 10 ^ 10 ∧ 4 ≤ greatestPrecision ∧
      coordinate (some 4) (hundredThousandths i) = ['0', '.', '0', '0', '0', '0'] := by
  intro i
  have small : i.natAbs ≤ 10 ^ 10 := by decide
  have fixed : 4 ≤ greatestPrecision := by decide
  obtain ⟨⟨m, text, -, near⟩, -⟩ := writesFixed_hundredThousandths small fixed
  have zero : m = 0 := by
    rw [coordinatePlaces, abs_le] at near
    norm_num [i] at near
    have above : (-1 : ℚ) < m := by linarith
    have below : (m : ℚ) < 1 := by linarith
    have range : -1 < m ∧ m < 1 := ⟨by exact_mod_cast above, by exact_mod_cast below⟩
    omega
  have digits : IsDigits ['0', '0', '0', '0'] := ⟨by decide, by simp [isDigit]⟩
  have whole : WritesNat 0 ['0'] := ⟨⟨by decide, by simp [isDigit]⟩, by decide, by decide⟩
  have places : WritesPlaces 4 0 ['0', '.', '0', '0', '0', '0'] :=
    .fraction (p := 4) (n := 0) (by decide) whole digits rfl (by decide)
  have written : WritesFixed 4 0 ['0', '.', '0', '0', '0', '0'] := .plain le_rfl places
  rw [zero] at text
  exact ⟨small, fixed, text.unique written⟩

/-- A coordinate half way between two units of the last place, whose double is a little less. -/
example : coordinate (some 2) (hundredThousandths (-1500)) = "-0.01".toList := by decide +kernel

end DrillPost.Gcode
