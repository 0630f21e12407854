import DrillPost.Proofs.Number.Value

/-!
# Fractions in lowest form

A decimal fraction has many texts, for zeros may stand in front of it and behind its last place. In
lowest form there are none of them, but for a single one in front of the point. The digits of a
shortest decimal do not end in a zero, so its text is in lowest form.

* `WritesLowest`, `WritesExactly`: the text of a fraction in lowest form, without and with a sign;
* `places_le`: without zeros at its end, a fraction has as few places as can be;
* `writesLowest_pointed`: which fractions with a point are in lowest form;
* `WritesLowest.unique`, `WritesExactly.unique`: a fraction has one such text;
* `Magnitude.writesLowest_shortest`: shortest decimals are.
-/

namespace DrillPost.Number

/-- The text of `n / 10 ^ k` in lowest form: a whole number without zeros in front, and a point with
more digits, the last of which is not a zero, if there is a fraction. -/
inductive WritesLowest (k n : Nat) : Text → Prop
  | whole {t : Text} (h : WritesNat (n / 10 ^ k) t) (rest : n % 10 ^ k = 0) : WritesLowest k n t
  | fraction {t u : Text} (h : WritesNat (n / 10 ^ k) t) (hu : IsDigits u) (short : u.length ≤ k)
      (last : u.getLast? ≠ some '0') (rest : digitsValue u * 10 ^ (k - u.length) = n % 10 ^ k) :
      WritesLowest k n (t ++ '.' :: u)

/-- The text of `i / 10 ^ k` in lowest form, with a minus sign if it is less than zero. -/
inductive WritesExactly (k : Nat) (i : Int) : Text → Prop
  | plain {t : Text} (h : 0 ≤ i) (ht : WritesLowest k i.natAbs t) : WritesExactly k i t
  | minus {t : Text} (h : i < 0) (ht : WritesLowest k i.natAbs t) : WritesExactly k i ('-' :: t)

/-! ## Fractions with a point -/

section

variable {m n k p : Nat} (same : m * 10 ^ k = n * 10 ^ p)

include same

/-- A fraction whose numerator has no zero at its end has the fewest places of its value. -/
theorem places_le (last : m % 10 ≠ 0) : p ≤ k := by
  by_contra more
  obtain ⟨j, rfl⟩ := Nat.exists_eq_add_of_lt (Nat.lt_of_not_le more)
  have multiple : m * 10 ^ k = 10 * (n * 10 ^ j) * 10 ^ k := by
    rw [same, show k + j + 1 = k + (j + 1) from rfl, Nat.pow_add, Nat.pow_succ]
    ring
  rw [Nat.eq_of_mul_eq_mul_right (Nat.pow_pos (by decide)) multiple] at last
  exact last (Nat.mul_mod_right 10 _)

/-- **A fraction with a point** is in lowest form, if its numerator has no zero at its end or there
is nothing behind the point. -/
theorem writesLowest_pointed (last : p ≠ 0 → m % 10 ≠ 0) : WritesLowest k n (pointed m p) := by
  unfold pointed
  split_ifs with none
  · subst none
    rw [pow_zero, Nat.mul_one] at same
    refine .whole ?_ ?_
    · rw [← same, Nat.mul_div_cancel m (Nat.pow_pos (by decide))]
      exact writesNat_digits m
    · rw [← same]
      exact Nat.mul_mod_left m _
  · obtain ⟨j, rfl⟩ := Nat.exists_eq_add_of_le (places_le same (last none))
    -- the numerator of the other fraction has the further zeros at its end
    have numerator : n = m * 10 ^ j := by
      rw [Nat.pow_add, Nat.mul_comm (10 ^ p), ← Nat.mul_assoc] at same
      exact (Nat.eq_of_mul_eq_mul_right (Nat.pow_pos (by decide)) same).symm
    have zeros : 0 < 10 ^ j := Nat.pow_pos (by decide)
    have length : (paddedDigits p (m % 10 ^ p)).length = p :=
      length_paddedDigits (Nat.pos_of_ne_zero none) (Nat.mod_lt m (Nat.pow_pos (by decide)))
    refine .fraction ?_ (isDigits_paddedDigits _ _) ?_ ?_ ?_
    · rw [numerator, Nat.pow_add, Nat.mul_div_mul_right _ _ zeros]
      exact writesNat_digits _
    · exact length.trans_le (Nat.le_add_right p j)
    · intro zero
      have multiple := (digitsValue_mod_ten_iff (isDigits_paddedDigits _ _)).2 zero
      rw [digitsValue_paddedDigits, Nat.pow_eq, Nat.mod_mod_of_dvd m (dvd_pow_self 10 none)]
        at multiple
      exact last none multiple
    · rw [Nat.pow_eq, length, digitsValue_paddedDigits, numerator, Nat.add_sub_cancel_left,
        Nat.pow_add, Nat.mul_mod_mul_right]

end

/-! ## One text for a fraction -/

/-- **A fraction has one text** in lowest form. -/
theorem WritesLowest.unique {k n : Nat} {t u : Text} (ht : WritesLowest k n t)
    (hu : WritesLowest k n u) : t = u := by
  have some_rest {ds : Text} {j : Nat} (hd : IsDigits ds) (last : ds.getLast? ≠ some '0') :
      digitsValue ds * 10 ^ j ≠ 0 := by
    have positive : digitsValue ds ≠ 0 := fun zero =>
      last ((digitsValue_mod_ten_iff hd).1 (by rw [zero]))
    exact Nat.mul_ne_zero positive (Nat.pow_pos (by decide)).ne'
  cases ht with
  | whole h rest =>
    cases hu with
    | whole h' rest' => rw [h.eq_digits, h'.eq_digits]
    | fraction h' hd short last rest' => exact absurd (rest'.trans rest) (some_rest hd last)
  | @fraction t ds h hd short last rest =>
    cases hu with
    | whole h' rest' => exact absurd (rest.trans rest') (some_rest hd last)
    | @fraction u es h' he short' last' rest' =>
      have longer := places_le (rest.trans rest'.symm) (mt (digitsValue_mod_ten_iff hd).1 last)
      have shorter := places_le (rest'.trans rest.symm) (mt (digitsValue_mod_ten_iff he).1 last')
      have length : ds.length = es.length := by omega
      rw [length, ← rest'] at rest
      have value := Nat.eq_of_mul_eq_mul_right (Nat.pow_pos (by decide)) rest
      rw [h.eq_digits, h'.eq_digits, eq_of_digitsValue_eq hd.digit he.digit length value]

/-- So has a fraction with a sign. -/
theorem WritesExactly.unique {k : Nat} {i : Int} {t u : Text} (ht : WritesExactly k i t)
    (hu : WritesExactly k i u) : t = u := by
  cases ht with
  | plain sign ht =>
    cases hu with
    | plain sign' hu => exact ht.unique hu
    | minus sign' hu => omega
  | minus sign ht =>
    cases hu with
    | plain sign' hu => omega
    | minus sign' hu => rw [ht.unique hu]

/-! ## Shortest decimals -/

/-- What is left of a decimal when the zeros at its end are cut off has none, or no places. -/
theorem Decimal.normalize_lowest (c : Nat) (e : Int) (h : (normalize c e).places ≠ 0) :
    (normalize c e).coefficient % 10 ≠ 0 := by
  fun_induction normalize c e with
  | case1 c e hc ih => exact ih h
  | case2 c e hc =>
    by_cases zero : c = 0
    · simp [places, zero] at h
    · exact fun multiple => hc ⟨zero, multiple⟩

/-- Zeros at the end of a shortest decimal are cut off. -/
theorem Magnitude.shortest_lowest (tie : Tie) (x : Magnitude) (h : (x.shortest tie).places ≠ 0) :
    (x.shortest tie).coefficient % 10 ≠ 0 := by
  obtain ⟨c, e, cut⟩ : ∃ c e, x.shortest tie = .normalize c e := by
    unfold shortest
    dsimp only
    split_ifs
    · exact ⟨0, 0, by simp [Decimal.normalize]⟩
    · split
      · exact ⟨_, _, rfl⟩
      · exact ⟨_, _, rfl⟩
  rw [cut] at h ⊢
  exact Decimal.normalize_lowest c e h

/-- **The text of a shortest decimal** is that of its value in lowest form. -/
theorem Magnitude.writesLowest_shortest {tie : Tie} {x : Magnitude} {n k : Nat}
    (h : (x.shortest tie).value = (n : ℚ) / 10 ^ k) :
    WritesLowest k n (x.shortest tie).positional := by
  rw [Decimal.value_eq_div, div_eq_div_iff (by positivity) (by positivity)] at h
  refine writesLowest_pointed (by exact_mod_cast h) fun some => ?_
  have whole : (x.shortest tie).exponent.toNat = 0 := by
    unfold Decimal.places at some
    omega
  rw [whole, Nat.pow_eq, pow_zero, Nat.mul_one]
  exact shortest_lowest tie x some

end DrillPost.Number
