import DrillPost.Proofs.Number.Value

/-!
# Fractions with a fixed number of places

A decimal fraction whose places are counted beforehand has one text. There are all its places behind
the point, with zeros among them where needed, and no point if there are no places.

* `WritesPlaces`, `WritesFixed`: the text of a fraction with so many places, without and with a
  sign;
* `WritesPlaces.eq_pointed`, `WritesFixed.unique`: a fraction has one such text;
* `WritesFixed.decimalValue_eq`: the text reads back as the fraction;
* `WritesFixed.head?_eq_minus_iff`: when there is a minus sign;
* `WritesFixed.append_zeros`: more places are zeros at its end.
-/

namespace DrillPost.Number

/-- The text of `n / 10 ^ p` with exactly `p` places: a whole number without zeros in front, and a
point with `p` digits unless there are none. -/
inductive WritesPlaces (p n : Nat) : Text → Prop
  | whole {t : Text} (none : p = 0) (h : WritesNat n t) : WritesPlaces p n t
  | fraction {t u : Text} (some : p ≠ 0) (h : WritesNat (n / 10 ^ p) t) (hu : IsDigits u)
      (length : u.length = p) (rest : digitsValue u = n % 10 ^ p) :
      WritesPlaces p n (t ++ '.' :: u)

/-- The text of `i / 10 ^ p` with exactly `p` places, with a minus sign in front of what is less
than zero, and of nothing else. -/
inductive WritesFixed (p : Nat) (i : Int) : Text → Prop
  | plain {t : Text} (h : 0 ≤ i) (ht : WritesPlaces p i.natAbs t) : WritesFixed p i t
  | minus {t : Text} (h : i < 0) (ht : WritesPlaces p i.natAbs t) : WritesFixed p i ('-' :: t)

section

variable {p n : Nat} {t u : Text}

theorem writesPlaces_pointed (p n : Nat) : WritesPlaces p n (pointed n p) := by
  unfold pointed
  split_ifs with none
  · exact .whole none (writesNat_digits n)
  · have small : n % 10 ^ p < 10 ^ p := Nat.mod_lt n (Nat.pow_pos (by decide))
    exact .fraction none (writesNat_digits _) (isDigits_paddedDigits p _)
      (length_paddedDigits (Nat.pos_of_ne_zero none) small) (digitsValue_paddedDigits p _)

/-- **A fraction has one text** with so many places. -/
theorem WritesPlaces.eq_pointed (h : WritesPlaces p n t) : t = pointed n p := by
  unfold pointed
  cases h with
  | whole none h => rw [if_pos none, h.eq_digits]
  | @fraction t u some h hu length rest =>
    have small : n % 10 ^ p < 10 ^ p := Nat.mod_lt n (Nat.pow_pos (by decide))
    have places : (paddedDigits p (n % 10 ^ p)).length = p :=
      length_paddedDigits (Nat.pos_of_ne_zero some) small
    have same : u = paddedDigits p (n % 10 ^ p) :=
      eq_of_digitsValue_eq hu.digit (isDigits_paddedDigits p _).digit (length.trans places.symm)
        (rest.trans (digitsValue_paddedDigits p _).symm)
    rw [if_neg some, h.eq_digits, same]
    rfl

/-- Zeros at the end of a fraction are further places. -/
theorem WritesPlaces.append_zeros (some : p ≠ 0) (h : WritesPlaces p n t) (k : Nat) :
    WritesPlaces (p + k) (n * 10 ^ k) (t ++ List.replicate k '0') := by
  have zeros : 0 < 10 ^ k := Nat.pow_pos (by decide)
  cases h with
  | whole none h => exact absurd none some
  | @fraction t u _ h hu length rest =>
    have value : digitsValue (u ++ List.replicate k '0') = n * 10 ^ k % 10 ^ (p + k) := by
      rw [digitsValue_append, List.length_replicate, rest, digitsValue_eq_ofDigitChars,
        Nat.ofDigitChars_replicate_zero, Nat.mul_zero, Nat.add_zero, Nat.pow_add,
        Nat.mul_mod_mul_right, Nat.mul_comm]
    have digits : IsDigits (u ++ List.replicate k '0') := by
      refine ⟨List.append_ne_nil_of_left_ne_nil hu.ne_nil _, fun c hc => ?_⟩
      rcases List.mem_append.1 hc with hc | hc
      · exact hu.digit c hc
      · rw [List.eq_of_mem_replicate hc]
        decide
    rw [List.append_assoc, List.cons_append]
    refine .fraction (by omega) ?_ digits ?_ value
    · rwa [Nat.pow_add, Nat.mul_div_mul_right _ _ zeros]
    · rw [List.length_append, List.length_replicate, length]

end

namespace WritesFixed

variable {p : Nat} {i : Int} {t u : Text}

/-- A fraction with a sign has one text, too. -/
theorem unique (ht : WritesFixed p i t) (hu : WritesFixed p i u) : t = u := by
  cases ht with
  | plain sign ht =>
    cases hu with
    | plain sign' hu => rw [ht.eq_pointed, hu.eq_pointed]
    | minus sign' hu => omega
  | minus sign ht =>
    cases hu with
    | plain sign' hu => omega
    | minus sign' hu => rw [ht.eq_pointed, hu.eq_pointed]

/-- The text of a fraction reads back. -/
theorem decimalValue_eq (h : WritesFixed p i t) : decimalValue t = some ((i : ℚ) / 10 ^ p) := by
  cases h with
  | plain sign h =>
    have number : (i.natAbs : ℚ) = i := by rw [Nat.cast_natAbs, abs_of_nonneg sign]
    rw [h.eq_pointed, decimalValue_pointed, number]
  | minus sign h =>
    have number : (i.natAbs : ℚ) = -i := by rw [Nat.cast_natAbs, abs_of_neg sign, Int.cast_neg]
    rw [h.eq_pointed, decimalValue_neg_pointed, number, neg_div, neg_neg]

/-- Its characters are digits, points and a minus sign. -/
theorem mem (h : WritesFixed p i t) {c : Char} (hc : c ∈ t) :
    isDigit c = true ∨ c = '.' ∨ c = '-' := by
  cases h with
  | plain sign h =>
    rw [h.eq_pointed] at hc
    exact (mem_pointed hc).imp_right .inl
  | minus sign h =>
    rcases List.mem_cons.1 hc with rfl | hc
    · exact .inr (.inr rfl)
    · rw [h.eq_pointed] at hc
      exact (mem_pointed hc).imp_right .inl

/-- **A minus sign stands in front of what is less than zero**, and of nothing else. -/
theorem head?_eq_minus_iff (h : WritesFixed p i t) : t.head? = some '-' ↔ i < 0 := by
  cases h with
  | plain sign h =>
    refine iff_of_false (fun minus => ?_) (not_lt.2 sign)
    rw [h.eq_pointed] at minus
    rcases mem_pointed (List.mem_of_mem_head? minus) with digit | point
    · exact absurd digit (by decide)
    · exact absurd point (by decide)
  | minus sign h => exact iff_of_true rfl sign

theorem append_zeros (some : p ≠ 0) (h : WritesFixed p i t) (k : Nat) :
    WritesFixed (p + k) (i * 10 ^ k) (t ++ List.replicate k '0') := by
  have scale : (0 : Int) < 10 ^ k := by positivity
  have number : (i * 10 ^ k).natAbs = i.natAbs * 10 ^ k := by
    rw [Int.natAbs_mul, Int.natAbs_pow]
    rfl
  cases h with
  | plain sign h =>
    refine .plain (mul_nonneg sign scale.le) ?_
    rw [number]
    exact h.append_zeros some k
  | minus sign h =>
    refine .minus (mul_neg_of_neg_of_pos sign scale) ?_
    rw [number]
    exact h.append_zeros some k

end WritesFixed

end DrillPost.Number
