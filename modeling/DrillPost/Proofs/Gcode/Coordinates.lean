import DrillPost.Proofs.Gcode.Number
import DrillPost.Proofs.Number.Lowest
import DrillPost.Proofs.Number.Short

/-!
# Coordinates are exact

A coordinate of a drill file counts hundred-thousandths. It is divided by a hundred thousand, which
is almost never exact for doubles, and the shortest decimal of the quotient is written. As long as
the coordinate has 15 digits at most, this is the decimal that was meant, in lowest form; and no two
coordinates share a text.

* `coordinatePlaces`: the number of places that a coordinate counts;
* `shownMagnitude_of_covers`: what the quotient shows;
* `exists_hundredThousandths_covers`: the double of a coordinate;
* `writesExactly_coordinate`: coordinates are written exactly.
-/

namespace DrillPost.Gcode

open Number

/-- A coordinate of a drill file counts units of the fifth place. -/
def coordinatePlaces : Nat := 5

theorem units_hundredThousand :
    hundredThousand.units = 10 ^ coordinatePlaces * Magnitude.unit := by
  obtain ⟨x, hx, units⟩ :=
    Magnitude.exists_ofNat_eq_some (by decide : 10 ^ coordinatePlaces < significandEnd)
  rw [hundredThousand, show 100000 = 10 ^ coordinatePlaces from rfl, hx, Option.getD_some, units]

theorem value_hundredThousand : hundredThousand.value = 100000 := by
  have positive : (Magnitude.unit : ℚ) ≠ 0 := Nat.cast_ne_zero.2 Magnitude.unit_pos.ne'
  rw [Magnitude.value, units_hundredThousand, Nat.cast_mul, mul_div_assoc, div_self positive]
  norm_num [coordinatePlaces]

/-- A magnitude that is divided by a hundred thousand stays finite. -/
theorem exists_div_hundredThousand_eq_some (y : Magnitude) :
    ∃ x, y.div hundredThousand = some x := by
  refine Magnitude.exists_nearest_eq_some ?_
  rw [units_hundredThousand, Nat.mul_div_mul_right _ _ Magnitude.unit_pos]
  refine Nat.div_lt_of_lt_mul ((y.units_lt y.exponent_le).trans_le ?_)
  decide +kernel

/-- A unit of the fifth place is not among the least doubles. -/
theorem significandEnd_mul_le_unit : significandEnd * 10 ^ coordinatePlaces ≤ Magnitude.unit :=
  calc significandEnd * 10 ^ coordinatePlaces ≤ 2 ^ 70 := by decide
    _ ≤ Magnitude.unit := Nat.pow_le_pow_right (by decide) (by decide)

section

variable {n : Nat} (h : n < 10 ^ Magnitude.reliableLength)

include h

/-- **What the quotient shows** is the fraction that it was rounded from. -/
theorem shownMagnitude_of_covers {x : Magnitude}
    (covers : x.Covers (n / 10 ^ coordinatePlaces * Magnitude.unit)) :
    shownMagnitude none x = (n : ℚ) / 10 ^ coordinatePlaces := by
  by_cases zero : n = 0
  · subst zero
    rw [Nat.cast_zero, zero_div, zero_mul] at covers
    obtain rfl : x = .zero := Magnitude.eq_zero_of_covers covers (by norm_num)
    rw [shownMagnitude_zero, Nat.cast_zero, zero_div]
  · have value : (Decimal.mk n (-coordinatePlaces)).value = (n : ℚ) / 10 ^ coordinatePlaces := by
      rw [Decimal.value, zpow_neg, zpow_natCast]
      rfl
    have large : (significandEnd : ℚ) ≤ n / 10 ^ coordinatePlaces * Magnitude.unit := by
      have some_unit : (1 : ℚ) ≤ n := by exact_mod_cast Nat.one_le_iff_ne_zero.2 zero
      have room : (significandEnd * 10 ^ coordinatePlaces : ℚ) ≤ Magnitude.unit := by
        exact_mod_cast significandEnd_mul_le_unit
      rw [div_mul_eq_mul_div, le_div_iff₀ (by positivity)]
      exact room.trans (le_mul_of_one_le_left (Nat.cast_nonneg _) some_unit)
    have normal := Magnitude.leastNormal_le_of_covers covers large
    rw [← value] at covers ⊢
    exact Magnitude.value_shortest_of_covers normal .away h (neg_le_neg (by decide)) covers

end

/-- **The double of a coordinate** is finite, and is rounded from what the coordinate counts. -/
theorem exists_hundredThousandths_covers {i : Int}
    (h : i.natAbs < 10 ^ Magnitude.reliableLength) :
    ∃ x, hundredThousandths i = .finite (i < 0) x ∧
      x.Covers ((i.natAbs : ℚ) / 10 ^ coordinatePlaces * Magnitude.unit) := by
  obtain ⟨y, hy, units⟩ := Magnitude.exists_ofNat_eq_some (h.trans (by decide : _ < significandEnd))
  obtain ⟨x, hx⟩ := exists_div_hundredThousand_eq_some y
  have covers := (Magnitude.div_eq_some_iff units units_hundredThousand (by decide)).1 hx
  refine ⟨x, ?_, by exact_mod_cast covers⟩
  rw [hundredThousandths, Binary64.ofInt, hy, Binary64.ofMagnitude, Binary64.divBy, hx]
  rfl

/-- It shows what the coordinate counts. -/
theorem exists_hundredThousandths_eq {i : Int} (h : i.natAbs < 10 ^ Magnitude.reliableLength) :
    ∃ x, hundredThousandths i = .finite (i < 0) x ∧
      shownMagnitude none x = (i.natAbs : ℚ) / 10 ^ coordinatePlaces := by
  obtain ⟨x, double, covers⟩ := exists_hundredThousandths_covers h
  exact ⟨x, double, shownMagnitude_of_covers h covers⟩

/-- The text of a magnitude is that of the number it shows, in lowest form. -/
theorem writesLowest_magnitude {x : Magnitude} {n k : Nat}
    (h : shownMagnitude none x = (n : ℚ) / 10 ^ k) : WritesLowest k n (magnitude none x) := by
  rw [magnitude, writeDecimal_plain]
  exact Magnitude.writesLowest_shortest h

/-- The text of a negative coordinate has its sign. -/
theorem showsNonzero_magnitude {x : Magnitude} {n k : Nat}
    (h : shownMagnitude none x = (n : ℚ) / 10 ^ k) (some : n ≠ 0) :
    showsNonzero (magnitude none x) = true := by
  obtain ⟨m, places, text, number⟩ := exists_magnitude_eq_pointed none x
  rw [text]
  by_contra hidden
  rw [eq_zero_of_showsNonzero_eq_false (Bool.eq_false_of_not_eq_true hidden), h, Nat.cast_zero,
    zero_div, div_eq_zero_iff] at number
  exact some (by exact_mod_cast number.resolve_right (by positivity))

/-- A minus sign stands in front of what is less than zero. -/
theorem writesExactly_coordinate_finite {x : Magnitude} {i : Int} {k : Nat}
    (h : shownMagnitude none x = (i.natAbs : ℚ) / 10 ^ k) :
    WritesExactly k i (coordinate none (.finite (i < 0) x)) := by
  have lowest := writesLowest_magnitude h
  by_cases negative : i < 0
  · have some : i.natAbs ≠ 0 := by omega
    simp only [coordinate, decide_eq_true negative, showsNonzero_magnitude h some, Bool.and_self,
      if_true]
    exact .minus negative lowest
  · simp only [coordinate, decide_eq_false negative, Bool.false_and, Bool.false_eq_true, if_false]
    exact .plain (not_lt.1 negative) lowest

section

variable {i : Int} (h : i.natAbs < 10 ^ 15)

include h

/-- A coordinate shows the fraction that it counts. -/
theorem decimalValue_coordinate_none :
    decimalValue (coordinate none (hundredThousandths i)) =
      some ((i : ℚ) / 10 ^ coordinatePlaces) := by
  obtain ⟨x, double, number⟩ := exists_hundredThousandths_eq h
  rw [double, decimalValue_coordinate none rfl]
  by_cases negative : i < 0
  · have sign : (i : ℚ) = -(i.natAbs : ℚ) := by
      rw [← Int.cast_natCast, Int.ofNat_natAbs_of_nonpos negative.le, Int.cast_neg, neg_neg]
    rw [decide_eq_true negative, shown, number, sign, neg_div]
  · have sign : (i : ℚ) = (i.natAbs : ℚ) := by
      rw [← Int.cast_natCast, Int.natAbs_of_nonneg (not_lt.1 negative)]
    rw [decide_eq_false negative, shown, number, sign]

/-- **Coordinates are written exactly.** Without a fixed number of places, a coordinate of 15 digits
at most has the text of its hundred-thousandths in lowest form: a minus sign if it is less than
zero, the whole number without superfluous zeros, and at most five places behind a point, the last
of which is not a zero, or neither places nor a point. The text reads back as this fraction, so
different coordinates have different texts. -/
theorem writesExactly_coordinate :
    WritesExactly coordinatePlaces i (coordinate none (hundredThousandths i)) ∧
      decimalValue (coordinate none (hundredThousandths i)) =
        some ((i : ℚ) / 10 ^ coordinatePlaces) ∧
      ∀ j : Int, j.natAbs < 10 ^ 15 →
        coordinate none (hundredThousandths j) = coordinate none (hundredThousandths i) →
        j = i := by
  refine ⟨?_, decimalValue_coordinate_none h, ?_⟩
  · obtain ⟨x, double, number⟩ := exists_hundredThousandths_eq h
    rw [double]
    exact writesExactly_coordinate_finite number
  · intro j hj same
    have value := decimalValue_coordinate_none hj
    rw [same, decimalValue_coordinate_none h, Option.some_inj,
      div_left_inj' (by positivity)] at value
    exact_mod_cast value.symm

end

/-- A coordinate with zeros among its places, which are written, and none at their end. -/
theorem writesExactly_coordinate_minus :
    let i : Int := -150070
    i.natAbs < 10 ^ 15 ∧
      coordinate none (hundredThousandths i) = ['-', '1', '.', '5', '0', '0', '7'] := by
  intro i
  have small : i.natAbs < 10 ^ 15 := by decide
  have whole : WritesNat (i.natAbs / 10 ^ coordinatePlaces) ['1'] :=
    ⟨⟨by decide, by simp [isDigit]⟩, by decide, by decide⟩
  have fraction : IsDigits ['5', '0', '0', '7'] := ⟨by decide, by simp [isDigit]⟩
  have text : WritesExactly coordinatePlaces i ['-', '1', '.', '5', '0', '0', '7'] :=
    .minus (by decide) (.fraction whole fraction (by decide) (by decide) (by decide))
  exact ⟨small, (writesExactly_coordinate small).1.unique text⟩

example : coordinate none (hundredThousandths (-999999999999999)) =
    "-9999999999.99999".toList := by decide +kernel

end DrillPost.Gcode
