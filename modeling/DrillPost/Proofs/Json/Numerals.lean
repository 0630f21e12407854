import DrillPost.Json.Value
import DrillPost.Proofs.Number.Length

/-!
# What a written number is read as

A number in a JSON document is read by two roundings: its leading digits are rounded to a double,
and this is scaled by a power of ten. With at most 19 digits all of them count. The two roundings
are none when the digits fit into the 53 bits of a significand and the power of ten is at most the
22nd, for then digits and power are doubles themselves and only their product or quotient is
rounded.

* `Numeral.decimal`, `Numeral.Means`: the decimal that a number writes, and its nearest double;
* `Numeral.toBinary64?_of_short`: the two roundings, when all digits count;
* `Numeral.scale_eq_some`: when they are one;
* `Numeral.IsKept`: the numbers that are read as what they stand for, among them all short ones
  (`Numeral.IsShort.isKept`).
-/

namespace DrillPost.Json.Numeral

open Number

/-! ## Digits that count -/

theorem le_foldl_digits (n : Nat) (ds : Text) :
    n ≤ ds.foldl (fun n c => 10 * n + digitValue c) n := by
  induction ds generalizing n with
  | nil => exact Nat.le_refl n
  | cons c ds ih => exact Nat.le_trans (by omega) (ih (10 * n + digitValue c))

/-- Digits all count as long as the number they write stays within 64 bits. -/
theorem absorb_eq {n : Nat} {ds : Text}
    (h : ds.foldl (fun n c => 10 * n + digitValue c) n ≤ greatest) :
    absorb n ds = (ds.foldl (fun n c => 10 * n + digitValue c) n, []) := by
  induction ds generalizing n with
  | nil => rfl
  | cons c ds ih =>
    have first : 10 * n + digitValue c ≤ greatest := (le_foldl_digits _ ds).trans h
    rw [absorb, if_neg (by omega), ih h]
    rfl

/-- The exponent of a number, as it is written. -/
def exponentValue (x : Numeral) : Int :=
  match x.exponent with
  | none => 0
  | some (below, ds) => if below then -(digitsValue ds : Int) else digitsValue ds

/-- The decimal that a number writes, without its sign. -/
def decimal (x : Numeral) : Decimal :=
  ⟨digitsValue (x.whole ++ x.fraction.getD []), x.exponentValue - (x.fraction.getD []).length⟩

/-- **The two roundings** of a number whose digits all count. -/
theorem toBinary64?_of_short {x : Numeral} (h : x.decimal.coefficient ≤ greatest)
    (hx : ∀ below ds, x.exponent = some (below, ds) → digitsValue ds ≤ greatestExponent) :
    x.toBinary64? =
      ((Magnitude.ofNat x.decimal.coefficient).bind (scale · x.decimal.exponent)).map
        (.finite x.negative) := by
  rw [decimal, digitsValue, List.foldl_append] at h
  have whole := absorb_eq ((le_foldl_digits _ _).trans h)
  have fraction := absorb_eq h
  simp only [toBinary64?, whole, fraction, decimal, exponentValue, digitsValue, List.foldl_append]
  cases hp : x.exponent with
  | none => simp
  | some part =>
    obtain ⟨below, ds⟩ := part
    have small := hx below ds hp
    simp only [digitsValue] at small
    simp only [not_lt.2 small, if_false]
    congr 3
    funext y
    congr 1
    simp
    ring

/-! ## Numbers that are read exactly -/

/-- The greatest power of ten that is a double, which is the 22nd. -/
def greatestPower : Nat := 22

theorem five_pow_mul (k e : Nat) : 5 ^ k * Nat.pow 2 (k + e) = 10 ^ k * Nat.pow 2 e := by
  rw [Nat.pow_eq, Nat.pow_eq, Nat.pow_add, show 10 = 5 * 2 from rfl, Nat.mul_pow]
  ring

/-- The first powers of ten are read exactly. -/
theorem exists_powerOfTen_eq_some {k : Nat} (h : k ≤ greatestPower) :
    ∃ x, powerOfTen k = some x ∧ x.units = 10 ^ k * Magnitude.unit := by
  have fits : 5 ^ k < significandEnd :=
    (Nat.pow_le_pow_right (by decide) h).trans_lt (by decide)
  have bound : k + 1074 ≤ 2045 := by
    unfold greatestPower at h
    omega
  obtain ⟨x, hx⟩ := Magnitude.exists_units_eq bound fits
  have units : x.units = 10 ^ k * Magnitude.unit := hx.trans (five_pow_mul k 1074)
  refine ⟨x, Decimal.magnitude_eq_some_iff.2 ?_, units⟩
  have value : (Decimal.mk 1 k).value * Magnitude.unit = x.units := by
    rw [units, Decimal.value]
    push_cast
    rw [zpow_natCast]
    ring
  rw [value]
  exact x.covers_units

/-- **One rounding.** Where the digits fit into a significand and the power of ten is not too
great, the two roundings give what the number is rounded to. -/
theorem scale_eq_some {n : Nat} {k : Int} {x : Magnitude} (hn : n < significandEnd)
    (hk : k.natAbs ≤ greatestPower) (h : x.Covers ((Decimal.mk n k).value * Magnitude.unit)) :
    (Magnitude.ofNat n).bind (scale · k) = some x := by
  obtain ⟨y, hy, yunits⟩ := Magnitude.exists_ofNat_eq_some hn
  obtain ⟨z, hz, zunits⟩ := exists_powerOfTen_eq_some hk
  have small : k.natAbs ≤ 308 := hk.trans (by decide)
  rw [hy, Option.bind_some, scale]
  have positive : (Magnitude.unit : ℚ) ≠ 0 := by exact_mod_cast Magnitude.unit_pos.ne'
  by_cases up : 0 ≤ k
  · have value : (Decimal.mk n k).value = n * 10 ^ k.natAbs := by
      rw [Decimal.value, ← zpow_natCast, Int.natAbs_of_nonneg up]
    rw [if_pos up, scaleUp, show k.toNat = k.natAbs by omega, if_pos small, hz, Option.bind_some]
    unfold Magnitude.mul
    refine Magnitude.nearest_eq_some Magnitude.unit_pos ?_
    convert h using 1
    rw [yunits, zunits, value]
    generalize Magnitude.unit = u at positive
    push_cast
    field_simp
  · have value : (Decimal.mk n k).value = n / 10 ^ k.natAbs := by
      rw [Decimal.value, ← zpow_natCast, Int.ofNat_natAbs_of_nonpos (by omega), zpow_neg,
        div_inv_eq_mul]
    rw [if_neg up, scaleDown, dif_pos small, hz, Option.bind_some]
    refine (Magnitude.div_eq_some_iff yunits zunits (by positivity)).2 ?_
    rw [value] at h
    exact_mod_cast h

/-! ## What a number stands for -/

/-- A number stands for the double nearest to its decimal value, with its sign, and for nothing
beyond the greatest double. -/
def Means (x : Numeral) (y : Binary64) : Prop :=
  ∃ m : Magnitude, y = .finite x.negative m ∧ m.Covers (x.decimal.value * Magnitude.unit)

/-- Digits without sign, point and exponent, as the number that they write. -/
structure Counts (x : Numeral) (n : Nat) : Prop where
  negative : x.negative = false
  fraction : x.fraction = none
  exponent : x.exponent = none
  value : digitsValue x.whole = n

/-- A number is read as what it stands for: its two roundings come to the same as one. -/
def IsKept (x : Numeral) : Prop := ∀ y, x.Means y → x.toBinary64? = some y

/-- A number with few digits and a small power of ten. -/
structure IsShort (x : Numeral) : Prop where
  digits : x.decimal.coefficient < significandEnd
  power : x.decimal.exponent.natAbs ≤ greatestPower
  exponent : ∀ below ds, x.exponent = some (below, ds) → digitsValue ds ≤ greatestExponent

variable {x : Numeral} {y z : Binary64}

theorem Means.ofDecimal_eq (h : x.Means y) : .ofDecimal x.negative x.decimal = y := by
  obtain ⟨m, rfl, covers⟩ := h
  rw [Binary64.ofDecimal, Decimal.magnitude_eq_some_iff.2 covers]
  rfl

/-- What a number stands for can be computed. -/
theorem means_of_ofDecimal_eq (h : .ofDecimal x.negative x.decimal = y)
    (finite : y.isFinite = true) : x.Means y := by
  subst h
  rw [Binary64.ofDecimal] at finite ⊢
  cases hm : x.decimal.magnitude with
  | none =>
    rw [hm] at finite
    cases finite
  | some m => exact ⟨m, rfl, Decimal.magnitude_eq_some_iff.1 hm⟩

theorem Means.unique (hy : x.Means y) (hz : x.Means z) : y = z :=
  hy.ofDecimal_eq.symm.trans hz.ofDecimal_eq

theorem Counts.toInt?_eq {n : Nat} (h : x.Counts n) (hn : n ≤ greatest) :
    x.toInt? = some (n : Int) := by
  obtain ⟨negative, fraction, exponent, rfl⟩ := h
  simp [toInt?, negative, fraction, exponent, hn]

/-- A whole number has no point, no exponent and no sign in front of zeros. -/
theorem of_toInt?_eq_some {i : Int} (h : x.toInt? = some i) :
    x.fraction = none ∧ x.exponent = none ∧ i.natAbs = digitsValue x.whole ∧
      x.negative = decide (i < 0) ∧ -(greatestNegative : Int) ≤ i := by
  unfold toInt? at h
  split at h
  · cases h
  · rename_i whole
    simp only [Bool.or_eq_true, not_or, Bool.not_eq_true, Option.isSome_eq_false_iff,
      Option.isNone_iff_eq_none] at whole
    refine ⟨whole.1, whole.2, ?_⟩
    cases hn : x.negative <;> simp only [hn, if_true, Bool.false_eq_true, if_false] at h <;>
      split_ifs at h with range <;> cases h
    · simp [greatestNegative]
    · simp only [Bool.and_eq_true, decide_eq_true_eq] at range
      simp
      omega

/-- A whole number stands for the double nearest to it. -/
theorem Means.ofInt_eq {i : Int} (h : x.Means y) (hi : x.toInt? = some i) : .ofInt i = y := by
  obtain ⟨m, rfl, covers⟩ := h
  obtain ⟨fraction, exponent, digits, sign, -⟩ := of_toInt?_eq_some hi
  have value : x.decimal.value = i.natAbs := by
    simp [decimal, exponentValue, fraction, exponent, digits, Decimal.value]
  rw [value, ← Nat.cast_mul, ← div_one ((_ : Nat) : ℚ), ← Nat.cast_one] at covers
  rw [Binary64.ofInt, Magnitude.ofNat, Magnitude.nearest_eq_some one_pos covers, sign]
  rfl

theorem exists_of_toBinary64?_eq_some (h : x.toBinary64? = some y) :
    ∃ m, y = .finite x.negative m := by
  obtain ⟨m, -, rfl⟩ := Option.map_eq_some_iff.1 h
  exact ⟨m, rfl⟩

/-- **Short numbers are read as what they stand for.** -/
theorem IsShort.isKept (h : x.IsShort) : x.IsKept := by
  rintro _ ⟨m, rfl, covers⟩
  have few : x.decimal.coefficient ≤ greatest := h.digits.le.trans (by decide)
  rw [toBinary64?_of_short few h.exponent, scale_eq_some h.digits h.power covers, Option.map_some]

end DrillPost.Json.Numeral
