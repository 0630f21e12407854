import DrillPost.Text.Letter
import Mathlib

/-!
# Letters within and beyond ASCII

* `Ascending`, `ascending_alphabeticRanges`, `ascending_numberRanges`: the tables are in order, each
  range at a distance from the last one, and say nothing about ASCII;
* `isAlphabetic_eq_isAlpha`, `isAlphanumeric_eq_isAlphanum`: so within ASCII the letters and digits
  are those of its alphabet;
* `isAlphanumeric_eq_false_of_isBlank`: no blank is a letter or a number;
* `scalar_eq_some_iff`: the characters are exactly what code points give.
-/

namespace DrillPost.Text

/-- Closed ranges in order from a number on, none empty and each at a distance from the last one. -/
def Ascending (n : Nat) : List (Nat × Nat) → Prop
  | [] => True
  | (first, last) :: ranges => n ≤ first ∧ first ≤ last ∧ Ascending (last + 2) ranges

/-- Whether ranges ascend can be decided. -/
instance decidableAscending :
    ∀ (n : Nat) (ranges : List (Nat × Nat)), Decidable (Ascending n ranges)
  | _, [] => .isTrue trivial
  | _, (_, last) :: ranges =>
    have := decidableAscending (last + 2) ranges
    inferInstanceAs (Decidable (_ ∧ _ ∧ _))

theorem ascending_alphabeticRanges : Ascending 0x80 alphabeticRanges := by decide +kernel

theorem ascending_numberRanges : Ascending 0x80 numberRanges := by decide +kernel

theorem Ascending.le_of_inRanges {ranges : List (Nat × Nat)} {n m : Nat} (h : Ascending n ranges)
    (hm : inRanges ranges m = true) : n ≤ m := by
  induction ranges generalizing n with
  | nil => simp [inRanges] at hm
  | cons r ranges ih =>
    obtain ⟨low, nonempty, rest⟩ := h
    simp only [inRanges, List.any_cons, Bool.or_eq_true, Bool.and_eq_true, decide_eq_true_eq] at hm
    rcases hm with ⟨first, -⟩ | later
    · omega
    · have := ih rest later
      omega

theorem Ascending.inRanges_eq_false {ranges : List (Nat × Nat)} {n m : Nat}
    (h : Ascending n ranges) (hm : m < n) : inRanges ranges m = false := by
  cases inside : inRanges ranges m with
  | false => rfl
  | true => exact absurd (h.le_of_inRanges inside) (by omega)

theorem isAlphabetic_eq_isAlpha {c : Char} (h : c.toNat < 0x80) : isAlphabetic c = c.isAlpha := by
  rw [isAlphabetic, ascending_alphabeticRanges.inRanges_eq_false h, Bool.or_false]

theorem isAlphanumeric_eq_isAlphanum {c : Char} (h : c.toNat < 0x80) :
    isAlphanumeric c = c.isAlphanum := by
  rw [isAlphanumeric, isAlphabetic_eq_isAlpha h, ascending_numberRanges.inRanges_eq_false h,
    Bool.or_false, Bool.or_comm, Char.isAlphanum]

/-- The blanks beyond ASCII. -/
def farBlanks : List Nat :=
  [0x85, 0xA0, 0x1680, 0x2000, 0x2001, 0x2002, 0x2003, 0x2004, 0x2005, 0x2006, 0x2007, 0x2008,
    0x2009, 0x200A, 0x2028, 0x2029, 0x202F, 0x205F, 0x3000]

theorem le_of_mem_farBlanks : ∀ n ∈ farBlanks, 0x80 ≤ n := by decide

theorem inRanges_farBlanks : ∀ n ∈ farBlanks,
    inRanges alphabeticRanges n = false ∧ inRanges numberRanges n = false := by decide +kernel

theorem toNat_of_isAlphanum {c : Char} (h : c.isAlphanum = true) :
    48 ≤ c.toNat ∧ c.toNat ≤ 57 ∨ 65 ≤ c.toNat ∧ c.toNat ≤ 90 ∨ 97 ≤ c.toNat ∧ c.toNat ≤ 122 := by
  simp only [Char.isAlphanum, Char.isAlpha, Char.isUpper, Char.isLower, Char.isDigit,
    Bool.or_eq_true, Bool.and_eq_true, decide_eq_true_eq, ge_iff_le, UInt32.le_iff_toNat_le] at h
  change ((65 ≤ c.toNat ∧ c.toNat ≤ 90) ∨ (97 ≤ c.toNat ∧ c.toNat ≤ 122)) ∨
    (48 ≤ c.toNat ∧ c.toNat ≤ 57) at h
  omega

theorem near_or_mem_farBlanks {c : Char} (h : isBlank c = true) :
    9 ≤ c.toNat ∧ c.toNat ≤ 32 ∨ c.toNat ∈ farBlanks := by
  simp only [isBlank, Bool.or_eq_true, Bool.and_eq_true, decide_eq_true_eq, beq_iff_eq] at h
  simp only [farBlanks, List.mem_cons, List.not_mem_nil]
  omega

theorem isAlphanum_eq_false_of_isBlank {c : Char} (h : isBlank c = true) :
    c.isAlphanum = false := by
  cases member : c.isAlphanum with
  | false => rfl
  | true =>
    have small := toNat_of_isAlphanum member
    rcases near_or_mem_farBlanks h with near | far
    · omega
    · have := le_of_mem_farBlanks _ far
      omega

/-- No blank is a letter or a number. -/
theorem isAlphanumeric_eq_false_of_isBlank {c : Char} (h : isBlank c = true) :
    isAlphanumeric c = false := by
  have outside := isAlphanum_eq_false_of_isBlank h
  rcases near_or_mem_farBlanks h with near | far
  · rw [isAlphanumeric_eq_isAlphanum (by omega), outside]
  · obtain ⟨letter, number⟩ := inRanges_farBlanks _ far
    simp only [Char.isAlphanum, Bool.or_eq_false_iff] at outside
    rw [isAlphanumeric, isAlphabetic, letter, number, outside.1, outside.2]
    rfl

/-- **The code points of characters.** A number is the code point of the character that it gives,
and every character is given by its own. -/
theorem scalar_eq_some_iff {n : Nat} {c : Char} : scalar n = some c ↔ c.toNat = n := by
  unfold scalar
  constructor
  · intro h
    split at h
    · rename_i valid
      cases h
      rw [Char.toNat_ofNat, if_pos]
      simpa [Nat.isValidChar] using valid
    · simp at h
  · rintro rfl
    have valid : c.toNat.isValidChar := c.valid
    simp only [Nat.isValidChar] at valid
    simp [valid]

end DrillPost.Text
