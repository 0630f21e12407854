import DrillPost.Number.Style
import Mathlib

/-!
# Rows of digits

The digits of a number are read back to this number, with zeros in front of them or not, and a
decimal fraction that was written with a point is read back as its numerator and its places.

* `digitsValue_digits`, `digitsValue_paddedDigits`: digits are read back;
* `IsDigits`, `WritesNat`: rows of digits, and those without zeros in front (`writesNat_digits`);
* `eq_of_digitsValue_eq`, `WritesNat.eq_digits`: a row of digits is known by its number and its
  length, or by its number if there are no zeros in front;
* `scan_pointed`: a fraction with a point is read back;
* `mem_pointed`: such a fraction holds digits and points only.
-/

namespace DrillPost.Number

/-! ## Digits -/

theorem digitsValue_eq_ofDigitChars (ds : Text) : digitsValue ds = Nat.ofDigitChars 10 ds 0 := rfl

theorem digitsValue_append (ds es : Text) :
    digitsValue (ds ++ es) = 10 ^ es.length * digitsValue ds + digitsValue es := by
  simp only [digitsValue_eq_ofDigitChars]
  rw [Nat.ofDigitChars_append, Nat.ofDigitChars_eq_ofDigitChars_zero]

@[simp] theorem digitsValue_digits (n : Nat) : digitsValue (digits n) = n :=
  Nat.ofDigitChars_ten_toDigits

theorem digits_ne_nil (n : Nat) : digits n ≠ [] := Nat.toDigits_ne_nil

theorem isDigit_of_mem_digits {n : Nat} {c : Char} (h : c ∈ digits n) : isDigit c = true :=
  Nat.isDigit_of_mem_toDigits (by decide) (by decide) h

/-- A row of digits, at least one. -/
structure IsDigits (t : Text) : Prop where
  ne_nil : t ≠ []
  digit : ∀ c ∈ t, isDigit c = true

/-- A row of digits that writes a number without leading zeros. -/
structure WritesNat (n : Nat) (t : Text) : Prop extends IsDigits t where
  value : digitsValue t = n
  leading : t.head? = some '0' → t = ['0']

/-- Only zero is written with a zero in front. -/
theorem eq_zero_of_head_digits {n : Nat} (h : (digits n).head? = some '0') : n = 0 := by
  induction n using Nat.strongRecOn with
  | _ n ih =>
    by_cases small : n < 10
    · rw [digits, Nat.toDigits_of_lt_base small] at h
      interval_cases n <;> first | rfl | exact absurd h (by decide)
    · have first : (digits (n / 10)).head? = some '0' := by
        rw [digits, Nat.toDigits_of_base_le (by decide) (by omega)] at h
        cases hd : digits (n / 10) with
        | nil => exact absurd hd (digits_ne_nil _)
        | cons c ds =>
          rw [digits] at hd
          rw [hd] at h
          exact h
      have := ih (n / 10) (by omega) first
      omega

theorem isDigits_digits (n : Nat) : IsDigits (digits n) :=
  ⟨digits_ne_nil n, fun _ => isDigit_of_mem_digits⟩

theorem writesNat_digits (n : Nat) : WritesNat n (digits n) where
  toIsDigits := isDigits_digits n
  value := digitsValue_digits n
  leading h := by
    rw [eq_zero_of_head_digits h]
    rfl

/-! ## Rows of digits are known by their numbers -/

/-- A digit has a value below ten. -/
theorem digitValue_lt {c : Char} (h : isDigit c = true) : digitValue c < 10 := by
  have range := Char.isDigit_iff_toNat.1 h
  simp only [digitValue, Char.reduceToNat] at range ⊢
  omega

theorem digitChar_digitValue {c : Char} (h : isDigit c = true) :
    Nat.digitChar (digitValue c) = c := by
  have range := Char.isDigit_iff_toNat.1 h
  have value := Nat.toNat_digitChar_of_lt_ten (digitValue_lt h)
  refine Char.toNat_inj.1 (value.trans ?_)
  simp only [digitValue, Char.reduceToNat] at range ⊢
  omega

/-- Rows of digits of one length write different numbers. -/
theorem eq_of_digitsValue_eq {ds es : Text} (hd : ∀ c ∈ ds, isDigit c = true)
    (he : ∀ c ∈ es, isDigit c = true) (length : ds.length = es.length)
    (value : digitsValue ds = digitsValue es) : ds = es := by
  induction ds using List.reverseRecOn generalizing es with
  | nil => exact (List.eq_nil_of_length_eq_zero length.symm).symm
  | append_singleton ds c ih =>
    cases es using List.reverseRecOn with
    | nil => simp at length
    | append_singleton es x =>
      rw [List.forall_mem_append, List.forall_mem_singleton] at hd he
      have small := digitValue_lt hd.2
      have small' := digitValue_lt he.2
      rw [digitsValue_concat, digitsValue_concat] at value
      have front : ds = es := ih hd.1 he.1 (by simpa using length) (by omega)
      have last : digitValue c = digitValue x := by omega
      rw [front, ← digitChar_digitValue hd.2, last, digitChar_digitValue he.2]

/-- **A number has one text** without zeros in front. -/
theorem WritesNat.eq_digits {n : Nat} {t : Text} (h : WritesNat n t) : t = digits n := by
  induction t using List.reverseRecOn generalizing n with
  | nil => exact absurd rfl h.ne_nil
  | append_singleton front c ih =>
    obtain ⟨⟨-, digit⟩, value, leading⟩ := h
    rw [List.forall_mem_append, List.forall_mem_singleton] at digit
    have small := digitValue_lt digit.2
    rw [digitsValue_concat] at value
    by_cases single : front = []
    · subst single
      rw [digitsValue_nil, Nat.mul_zero, Nat.zero_add] at value
      rw [← value, digits, Nat.toDigits_of_lt_base small, digitChar_digitValue digit.2]
      rfl
    · have head : front.head? ≠ some '0' := by
        intro zero
        have alone := congrArg List.length (leading (by rw [List.head?_append, zero]; rfl))
        rw [List.length_append, List.length_singleton, List.length_singleton] at alone
        exact single (List.eq_nil_of_length_eq_zero (by omega))
      have whole : front = digits (digitsValue front) :=
        ih ⟨⟨single, digit.1⟩, rfl, fun zero => absurd zero head⟩
      have positive : digitsValue front ≠ 0 := by
        intro zero
        rw [whole, zero] at head
        exact head rfl
      have quotient : n / 10 = digitsValue front := by omega
      have rest : n % 10 = digitValue c := by omega
      rw [digits, Nat.toDigits_of_base_le (by decide) (by omega), quotient, rest,
        digitChar_digitValue digit.2, ← digits, ← whole]

/-- A row of digits ends in a zero exactly when it writes a multiple of ten. -/
theorem digitsValue_mod_ten_iff {ds : Text} (h : IsDigits ds) :
    digitsValue ds % 10 = 0 ↔ ds.getLast? = some '0' := by
  cases ds using List.reverseRecOn with
  | nil => exact absurd rfl h.ne_nil
  | append_singleton front c =>
    have digit : isDigit c = true := h.digit c (by simp)
    have small := digitValue_lt digit
    rw [digitsValue_concat, List.getLast?_concat, Option.some_inj]
    constructor
    · intro multiple
      have zero : digitValue c = 0 := by omega
      rw [← digitChar_digitValue digit, zero]
      rfl
    · rintro rfl
      exact Nat.mul_mod_right 10 _

/-! ## Digits filled up with zeros -/

@[simp] theorem digitsValue_paddedDigits (width n : Nat) :
    digitsValue (paddedDigits width n) = n := by
  have zeros : digitsValue (List.replicate (width - (digits n).length) '0') = 0 := by
    rw [digitsValue_eq_ofDigitChars, Nat.ofDigitChars_replicate_zero, Nat.mul_zero]
  rw [paddedDigits, digitsValue_append, zeros, digitsValue_digits]
  omega

theorem length_paddedDigits {width n : Nat} (hw : 0 < width) (h : n < 10 ^ width) :
    (paddedDigits width n).length = width := by
  have : (digits n).length ≤ width := (Nat.length_toDigits_le_iff (by decide) hw).2 h
  simp only [paddedDigits, List.length_append, List.length_replicate]
  omega

theorem isDigit_of_mem_paddedDigits {width n : Nat} {c : Char} (h : c ∈ paddedDigits width n) :
    isDigit c = true := by
  rcases List.mem_append.1 h with h | h
  · rw [List.eq_of_mem_replicate h]
    decide
  · exact isDigit_of_mem_digits h

theorem isDigits_paddedDigits (width n : Nat) : IsDigits (paddedDigits width n) where
  ne_nil h := digits_ne_nil n (List.append_eq_nil_iff.1 h).2
  digit _ := isDigit_of_mem_paddedDigits

/-! ## Fractions with a point -/

/-- The characters of a fraction. -/
theorem mem_pointed {n places : Nat} {c : Char} (h : c ∈ pointed n places) :
    isDigit c = true ∨ c = '.' := by
  unfold pointed at h
  split at h
  · exact .inl (isDigit_of_mem_digits h)
  · rcases List.mem_append.1 h with h | h
    · exact .inl (isDigit_of_mem_digits h)
    · rcases List.mem_cons.1 h with h | h
      · exact .inr h
      · exact .inl (isDigit_of_mem_paddedDigits h)

theorem spanDigits_append {ds : Text} (h : ∀ c ∈ ds, isDigit c = true) {r : Text}
    (hr : r.head?.all (!isDigit ·) = true) : Decimal.spanDigits (ds ++ r) = (ds, r) := by
  rw [Decimal.spanDigits, List.span_eq_takeWhile_dropWhile]
  cases r with
  | nil =>
    rw [List.append_nil, List.takeWhile_eq_self_iff.2 h, List.dropWhile_eq_nil_iff.2 h]
  | cons c r =>
    have hc : isDigit c = false := by simpa using hr
    rw [List.takeWhile_append_of_pos h, List.dropWhile_append_of_pos h]
    simp [hc]

/-- The digits of a fraction on both sides of its point write its numerator. -/
theorem digitsValue_whole_append_fraction (n : Nat) {places : Nat} (h : 0 < places) :
    digitsValue (digits (n / 10 ^ places) ++ paddedDigits places (n % 10 ^ places)) = n := by
  rw [digitsValue_append, length_paddedDigits h (Nat.mod_lt n (by positivity)),
    digitsValue_digits, digitsValue_paddedDigits]
  exact Nat.div_add_mod n _

/-- **A fraction that is written with a point is read back**: its coefficient is the numerator, and
its exponent counts the places. -/
theorem scan_pointed (n places : Nat) :
    Decimal.scan (pointed n places) = some ⟨n, -(places : Int)⟩ := by
  have whole : ∀ (m : Nat) {r : Text}, r.head?.all (!isDigit ·) = true →
      Decimal.spanDigits (digits m ++ r) = (digits m, r) := fun m _ hr =>
    spanDigits_append (fun _ => isDigit_of_mem_digits) hr
  by_cases hp : places = 0
  · subst hp
    have := whole n (r := []) rfl
    rw [List.append_nil] at this
    simp [Decimal.scan, pointed, this, digits_ne_nil]
  · have hpos : 0 < places := Nat.pos_of_ne_zero hp
    have hmod : n % 10 ^ places < 10 ^ places := Nat.mod_lt _ (by positivity)
    have hlen := length_paddedDigits hpos hmod
    have hne : paddedDigits places (n % 10 ^ places) ≠ [] := by
      intro h
      rw [h] at hlen
      exact hp hlen.symm
    have digit : ∀ c ∈ paddedDigits places (n % 10 ^ places), isDigit c = true :=
      fun _ => isDigit_of_mem_paddedDigits
    have fraction : Decimal.spanDigits (paddedDigits places (n % 10 ^ places)) =
        (paddedDigits places (n % 10 ^ places), []) := by
      simpa using spanDigits_append digit (r := []) rfl
    have value := digitsValue_whole_append_fraction n hpos
    simp only [Decimal.scan, pointed, hp, if_false, Nat.pow_eq]
    rw [whole _ (r := '.' :: _) rfl]
    simp [fraction, digits_ne_nil, hne, value, hlen]

end DrillPost.Number
