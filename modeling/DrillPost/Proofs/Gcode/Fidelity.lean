import DrillPost.Proofs.Gcode.Places

/-!
# Written numbers are faithful

The text of a coordinate or height is a decimal fraction, with a minus sign just in front of what is
less than zero. Greater numbers do not have lesser texts, and without a fixed number of places they
have greater ones, which read back. With a fixed number of places there are exactly these, and they
are rounded as they should be. A minus sign that the number has is left out where the fraction is
zero, be it that the number is, or that it was rounded to zero.

* `exists_writesFixed_coordinate`: the text is that of a fraction;
* `ofText_of_writesFixed`: what such a text reads back as;
* `Renders`: what a text says of a number;
* `renders_coordinate`: coordinates and heights are faithful, and in order.
-/

namespace DrillPost.Gcode

open Number
open Excellon (signed natAbs_signed)

/-! ## The text -/

/-- The fraction that a finite number is written as. -/
theorem exists_writesFixed_coordinate (precision : Option Nat) (negative : Bool) (x : Magnitude) :
    ∃ n places : Nat, shownMagnitude precision x = (n : ℚ) / 10 ^ places ∧
      (∀ p, precision = some p → places = p) ∧
      WritesFixed places (signed negative n) (coordinate precision (.finite negative x)) := by
  cases precision with
  | some p =>
    exact ⟨placesShown p x, p, shownMagnitude_some p x, fun _ same => Option.some.inj same,
      writesFixed_coordinate p negative x⟩
  | none =>
    obtain ⟨n, places, text, number⟩ := exists_magnitude_eq_pointed none x
    refine ⟨n, places, number, nofun, ?_⟩
    rw [coordinate, text]
    exact writesFixed_pointed negative n places

theorem signed_neg_iff {negative : Bool} {n : Nat} :
    signed negative n < 0 ↔ negative = true ∧ n ≠ 0 := by
  cases negative <;> simp [signed, Nat.pos_iff_ne_zero]

/-! ## Reading back -/

theorem notMem_pointed {c : Char} (hc : isDigit c = false ∧ c ≠ '.') (n places : Nat) :
    c ∉ pointed n places := by
  intro member
  rcases mem_pointed member with digit | point
  · exact Bool.false_ne_true (hc.1.symm.trans digit)
  · exact hc.2 point

/-- The digits of a fraction are none of the words for numbers. -/
theorem pointed_ne_words (n places : Nat) :
    pointed n places ≠ ['N', 'a', 'N'] ∧ pointed n places ≠ ['i', 'n', 'f'] := by
  constructor <;> intro word
  · exact notMem_pointed (c := 'N') (by decide) n places (by simp [word])
  · exact notMem_pointed (c := 'i') (by decide) n places (by simp [word])

theorem ofText_pointed (n places : Nat) :
    Binary64.ofText (pointed n places) = some (.ofDecimal false ⟨n, -(places : Int)⟩) := by
  obtain ⟨nan, infinite⟩ := pointed_ne_words n places
  have minus := notMem_pointed (c := '-') (by decide) n places
  have plus := notMem_pointed (c := '+') (by decide) n places
  have scanned := scan_pointed n places
  generalize pointed n places = t at *
  unfold Binary64.ofText
  split
  rename_i sign
  split at sign
  · exact absurd List.mem_cons_self minus
  · exact absurd List.mem_cons_self plus
  · obtain ⟨rfl, rfl⟩ := Prod.mk.inj sign
    rw [if_neg nan, if_neg infinite, scanned]
    rfl

theorem ofText_neg_pointed (n places : Nat) :
    Binary64.ofText ('-' :: pointed n places) = some (.ofDecimal true ⟨n, -(places : Int)⟩) := by
  obtain ⟨nan, infinite⟩ := pointed_ne_words n places
  have scanned := scan_pointed n places
  generalize pointed n places = t at *
  simp only [Binary64.ofText]
  rw [if_neg nan, if_neg infinite, scanned]
  rfl

/-- **What the text of a fraction reads back as.** -/
theorem ofText_of_writesFixed {places : Nat} {i : Int} {t : Text} (h : WritesFixed places i t) :
    Binary64.ofText t = some (.ofDecimal (i < 0) ⟨i.natAbs, -(places : Int)⟩) := by
  cases h with
  | plain sign h => rw [h.eq_pointed, ofText_pointed, decide_eq_false (not_lt.2 sign)]
  | minus sign h => rw [h.eq_pointed, ofText_neg_pointed, decide_eq_true sign]

/-! ## What a text says of a number -/

/-- What the text of a number says: it shows the decimal `a` in the grammar of numbers, with no
exponent and with a minus sign just in front of what is less than zero. -/
structure Renders (precision : Option Nat) (v : Binary64) (a : ℚ) (t : Text) : Prop where
  value : decimalValue t = some a
  grammar : IsSigned t
  exponent : 'e' ∉ t ∧ 'E' ∉ t
  sign : t.head? = some '-' ↔ a < 0
  /-- With a fixed number of places there are exactly these, and they are rounded. -/
  fixed : ∀ places, precision = some places →
    (∃ i : Int, WritesFixed places i t) ∧ |a - v.value| ≤ 1 / 2 / 10 ^ places
  /-- Otherwise the text reads back, but for the sign of zero. -/
  back : precision = none →
    ∃ u, Binary64.ofText t = some u ∧ u.agrees v = true ∧ (v.units ≠ 0 → u = v)

/-- The shortest text of a number reads back. -/
theorem exists_ofText_coordinate {v : Binary64} (h : v.isFinite = true) :
    ∃ u, Binary64.ofText (coordinate none v) = some u ∧ u.agrees v = true ∧
      (v.units ≠ 0 → u = v) := by
  rcases v with _ | _ | ⟨negative, x⟩
  · cases h
  · cases h
  obtain ⟨n, places, number, -, text⟩ := exists_writesFixed_coordinate none negative x
  rw [ofText_of_writesFixed text, natAbs_signed, ofDecimal_eq_finite number.symm]
  refine ⟨_, rfl, ?_⟩
  by_cases zero : n = 0
  · -- the sign is lost, and the two zeros agree
    have units : x.units = 0 := by
      by_contra some
      have positive := shownMagnitude_pos (Nat.pos_of_ne_zero some)
      rw [number, zero, Nat.cast_zero, zero_div] at positive
      exact lt_irrefl _ positive
    have none (b : Bool) : (Binary64.finite b x).units = 0 := by
      cases b <;> simp [Binary64.units, units]
    refine ⟨(Binary64.agrees_iff_units_eq rfl rfl).2 ?_, fun some => absurd (none negative) some⟩
    rw [none, none]
  · have same : decide (signed negative n < 0) = negative := by simp [signed_neg_iff, zero]
    rw [same]
    exact ⟨(Binary64.agrees_iff_units_eq rfl rfl).2 rfl, fun _ => rfl⟩

variable (precision : Option Nat) {v w : Binary64}

theorem renders_coordinate (hv : v.isFinite = true) :
    Renders precision v (shown precision v) (coordinate precision v) := by
  have value := decimalValue_coordinate precision hv
  obtain ⟨i, places, same, text⟩ : ∃ (i : Int) (places : Nat),
      (∀ p, precision = some p → places = p) ∧ WritesFixed places i (coordinate precision v) := by
    rcases v with _ | _ | ⟨negative, x⟩
    · cases hv
    · cases hv
    · obtain ⟨n, places, -, same, text⟩ := exists_writesFixed_coordinate precision negative x
      exact ⟨_, places, same, text⟩
  have fraction : shown precision v = (i : ℚ) / 10 ^ places :=
    Option.some.inj (value.symm.trans text.decimalValue_eq)
  have positive : (0 : ℚ) < 10 ^ places := by positivity
  have letter (c : Char) (hc : isDigit c = false ∧ c ≠ '.' ∧ c ≠ '-') :
      c ∉ coordinate precision v := fun member => by
    rcases text.mem member with digit | point | minus
    · exact Bool.false_ne_true (hc.1.symm.trans digit)
    · exact hc.2.1 point
    · exact hc.2.2 minus
  refine
    { value, grammar := isSigned_coordinate precision hv
      exponent := ⟨letter 'e' (by decide), letter 'E' (by decide)⟩
      sign := ?_
      fixed := fun p fixed => ?_
      back := fun shortest => ?_ }
  · rw [text.head?_eq_minus_iff, fraction, div_lt_iff₀ positive, zero_mul, Int.cast_lt_zero]
  · obtain rfl := same p fixed
    subst fixed
    exact ⟨⟨i, text⟩, abs_shown_sub_value_le places hv⟩
  · subst shortest
    exact exists_ofText_coordinate hv

/-- **Coordinates and heights are faithful.** The text of a finite number is a decimal fraction with
a minus sign just if it is less than zero. With a fixed number of places it has exactly these and is
at most half a unit of the last one away from the number; without, it reads back. A number that is
not greater than another is not shown as greater, and without a fixed number of places one that is
less is shown as less. -/
theorem renders_in_order (hv : v.isFinite = true) (hw : w.isFinite = true) :
    ∃ a b : ℚ, Renders precision v a (coordinate precision v) ∧
      Renders precision w b (coordinate precision w) ∧
      (v.le w = true → a ≤ b) ∧ (precision = none → v.lt w = true → a < b) := by
  refine ⟨_, _, renders_coordinate precision hv, renders_coordinate precision hw,
    fun le => ?_, fun shortest lt => ?_⟩
  · exact shown_mono precision hv hw ((Binary64.le_iff_units_le hv hw).1 le)
  · subst shortest
    exact shown_strictMono hv hw ((Binary64.lt_iff_units_lt hv hw).1 lt)

/-- Two numbers below zero, one of which is rounded to zero and has no minus sign. -/
theorem renders_in_order_rounded :
    let v := Binary64.ofDecimal true ⟨6, -3⟩
    let w := Binary64.ofDecimal true ⟨4, -3⟩
    v.isFinite = true ∧ w.isFinite = true ∧ v.le w = true ∧
      ∃ a b : ℚ, Renders (some 2) v a ['-', '0', '.', '0', '1'] ∧
        Renders (some 2) w b ['0', '.', '0', '0'] ∧ a ≤ b ∧ a < 0 ∧ ¬ b < 0 := by
  intro v w
  have finite : v.isFinite = true := by decide +kernel
  have finite' : w.isFinite = true := by decide +kernel
  have le : v.le w = true := by decide +kernel
  have text : coordinate (some 2) v = ['-', '0', '.', '0', '1'] := by decide +kernel
  have text' : coordinate (some 2) w = ['0', '.', '0', '0'] := by decide +kernel
  obtain ⟨a, b, first, second, order, -⟩ := renders_in_order (some 2) finite finite'
  rw [text] at first
  rw [text'] at second
  exact ⟨finite, finite', le, a, b, first, second, order le, first.sign.1 rfl,
    fun negative => absurd (second.sign.2 negative) (by decide)⟩

end DrillPost.Gcode
