import DrillPost.Proofs.Json.Written
import DrillPost.Settings.Toml

/-!
# Written values are read

A number may be written as it is in JSON. No digits are lost then, and the one rounding that the
reader makes leads to the number that is nearest; so the numbers of settings, which are written by
position with a point, are read back. None of them could be taken for a date or a time of day.

* `Writes`: a text writes a value on the rest of its line;
* `moment_text`: a number is no moment;
* `writes_numeral`, `writes_whole`: numbers with a point or an exponent, and without;
* `writes_float`, `writes_integer`, `writes_boolean`: the values of settings.
-/

namespace DrillPost.Toml

open Number

/-- A text writes a value: it is read as this value up to the end of its line. Blanks in front and
the brackets of arrays and tables are no part of it. -/
structure Writes (t : Text) (v : Value) : Prop where
  reading : ∀ r, scalarValue (t ++ '\n' :: r) = some (v, '\n' :: r)
  head : ∃ c s, t = c :: s ∧ isSpace c = false ∧ c ≠ '[' ∧ c ≠ '{'

/-! ## Dates and times -/

theorem digitsOf_eq_some {n m : Nat} {t rest : Text} (h : digitsOf n t = some (m, rest)) :
    t = t.take n ++ rest ∧ ∀ c ∈ t.take n, isDigit c = true := by
  simp only [digitsOf] at h
  split_ifs at h with digits
  simp only [Bool.and_eq_true, decide_eq_true_eq, List.all_eq_true] at digits
  obtain ⟨-, rfl⟩ := Prod.mk.inj (Option.some.inj h)
  exact ⟨(List.take_append_drop n t).symm, digits.2⟩

theorem eq_cons_of_after {c : Char} {t r : Text} (h : after c t = some r) : t = c :: r := by
  cases t with
  | nil => cases h
  | cons d t =>
    simp only [after] at h
    split_ifs at h with hd
    rw [hd, Option.some.inj h]

/-- Digits with a given character behind them. -/
theorem dropWhile_of_digitsOf {n m : Nat} {t rest r : Text} {c : Char}
    (h : digitsOf n t = some (m, rest)) (hc : after c rest = some r) (digit : isDigit c = false) :
    t.dropWhile isDigit = c :: r := by
  obtain ⟨split, digits⟩ := digitsOf_eq_some h
  rw [split, eq_cons_of_after hc, List.dropWhile_append_of_pos digits]
  simp [digit]

/-- A text is no moment when what stands behind the digits at its start is no sign and no colon. -/
theorem moment_eq_none {t : Text}
    (h : ∀ c r, t.dropWhile isDigit = c :: r → c ≠ '-' ∧ c ≠ ':') : moment t = none := by
  have noDate : date t = none := by
    cases year : digitsOf 4 t with
    | none => rw [date, year, Option.bind_none]
    | some p =>
      cases sign : after '-' p.2 with
      | none => simp [date, year, sign]
      | some r => exact absurd rfl (h _ _ (dropWhile_of_digitsOf year sign rfl)).1
  have noTime : time t = none := by
    cases hour : twoDigits 0 23 t with
    | none => rw [time, hour, Option.bind_none]
    | some p =>
      cases colon : after ':' p.2 with
      | none => simp [time, hour, colon]
      | some r =>
        cases digits : digitsOf 2 t with
        | none => simp [twoDigits, digits] at hour
        | some q =>
          have same : q = p := by
            simp only [twoDigits, digits, Option.bind_some] at hour
            split_ifs at hour
            exact Option.some.inj hour
          exact absurd rfl (h _ _ (dropWhile_of_digitsOf digits (same ▸ colon) rfl)).2
  rw [moment, noDate, noTime]

theorem moment_minus (r : Text) : moment ('-' :: r) = none := by
  have none (n : Nat) : digitsOf (n + 1) ('-' :: r) = none := by
    simp [digitsOf, show isDigit '-' = false from rfl]
  rw [moment, date, none 3, Option.bind_none, time, twoDigits, none 1, Option.bind_none,
    Option.bind_none]

/-! ## Digits -/

/-- Digits are read up to what is neither a digit nor an underscore. -/
theorem underscored_append {ds : Text} (h : IsDigits ds) {r : Text}
    (hr : r.head?.all (fun c => !(isDigit c || c == '_')) = true) :
    underscored isDigit (ds ++ r) = some (ds, r) := by
  obtain ⟨ne, digit⟩ := h
  induction ds with
  | nil => exact absurd rfl ne
  | cons c ds ih =>
    have hc : isDigit c = true := digit c List.mem_cons_self
    cases ds with
    | nil =>
      cases r with
      | nil => simp [underscored, hc]
      | cons x r =>
        simp only [List.head?_cons, Option.all_some, Bool.not_eq_true', Bool.or_eq_false_iff,
          beq_eq_false_iff_ne] at hr
        simp [underscored, hc, hr.1, hr.2]
    | cons d ds =>
      have hd : isDigit d = true := digit d (by simp)
      have underscore : d ≠ '_' := by
        rintro rfl
        exact absurd hd (by decide)
      have rest := ih (by simp) fun x hx => digit x (List.mem_cons_of_mem c hx)
      simp only [List.cons_append] at rest ⊢
      rw [underscored]
      · simp [hc, hd, rest]
      · rintro r' h
        exact underscore (List.cons.inj h).1

theorem wholeDigits_append {ds : Text} (h : IsDigits ds) (hl : ds.head? = some '0' → ds = ['0'])
    {r : Text} (hr : r.head?.all (fun c => !(isDigit c || c == '_')) = true) :
    wholeDigits (ds ++ r) = some (ds, r) := by
  by_cases zero : ds.head? = some '0'
  · rw [hl zero]
    rfl
  · rw [← underscored_append h hr]
    obtain ⟨c, ds, rfl⟩ := List.exists_cons_of_ne_nil h.ne_nil
    have leading : c ≠ '0' := by simpa using zero
    rw [List.cons_append, wholeDigits]
    rintro r' h
    exact leading (List.cons.inj h).1

/-! ## Numbers -/

/-- A text that starts as numbers do. -/
def StartsNumber (t : Text) : Prop := ∃ c s, t = c :: s ∧ (c = '-' ∨ isDigit c = true)

theorem ne_of_startsNumber {c x : Char} (h : c = '-' ∨ isDigit c = true)
    (hx : x ≠ '-' ∧ isDigit x = false) : c ≠ x := by
  rintro rfl
  rcases h with rfl | digit
  · exact hx.1 rfl
  · simp [hx.2] at digit

/-- What starts as a number and is no moment is read as a number. -/
theorem scalarValue_of_startsNumber {t : Text} (h : StartsNumber t) (hm : moment t = none) :
    scalarValue t = (decimalFloat t <|> specialFloat t <|> integer t) := by
  obtain ⟨c, s, rfl, hc⟩ := h
  unfold scalarValue
  split
  case h_5 =>
    rw [hm]
    rfl
  all_goals
    rename_i heq
    exact absurd (List.cons.inj heq).1 (ne_of_startsNumber hc (by decide))

/-- A number on the rest of its line. -/
theorem writes_of_startsNumber {t : Text} {v : Value} (h : StartsNumber t)
    (hm : ∀ r, moment (t ++ '\n' :: r) = none)
    (hv : ∀ r, (decimalFloat (t ++ '\n' :: r) <|> specialFloat (t ++ '\n' :: r) <|>
      integer (t ++ '\n' :: r)) = some (v, '\n' :: r)) : Writes t v := by
  obtain ⟨c, s, rfl, hc⟩ := h
  refine ⟨fun r => ?_, c, s, rfl, ?_, ne_of_startsNumber hc (by decide),
    ne_of_startsNumber hc (by decide)⟩
  · exact (scalarValue_of_startsNumber ⟨c, s ++ '\n' :: r, rfl, hc⟩ (hm r)).trans (hv r)
  · simp [isSpace, ne_of_startsNumber hc (x := ' ') (by decide),
      ne_of_startsNumber hc (x := '\t') (by decide)]

section

variable {x : Json.Numeral} (h : x.Proper)

include h

theorem exists_text_eq : ∃ c s, x.unsignedText = c :: s ∧ isDigit c = true := by
  obtain ⟨c, w, hw⟩ := List.exists_cons_of_ne_nil h.whole.ne_nil
  refine ⟨c, _, by rw [Json.Numeral.unsignedText, hw, List.cons_append], ?_⟩
  exact h.whole.digit c (hw ▸ List.mem_cons_self)

theorem startsNumber_text : StartsNumber x.text := by
  obtain ⟨c, s, hs, hc⟩ := exists_text_eq h
  cases hn : x.negative with
  | true => exact ⟨'-', x.unsignedText, by simp [Json.Numeral.text, hn], .inl rfl⟩
  | false => exact ⟨c, s, by simp [Json.Numeral.text, hn, hs], .inr hc⟩

theorem sign_text (r : Text) : sign (x.text ++ r) = (x.negative, x.unsignedText ++ r) := by
  obtain ⟨c, s, hs, digit⟩ := exists_text_eq h
  cases hn : x.negative with
  | true => simp [Json.Numeral.text, hn, sign]
  | false =>
    simp only [Json.Numeral.text, hn, hs, Bool.false_eq_true, if_false, List.nil_append,
      List.cons_append]
    rw [sign]
    · rintro r' heq
      rw [(List.cons.inj heq).1] at digit
      exact absurd digit (by decide)
    · rintro r' heq
      rw [(List.cons.inj heq).1] at digit
      exact absurd digit (by decide)

omit h in
/-- Behind the digits before its point a number goes on with the point, the letter of its exponent
or the end of its line. -/
theorem exists_rest_eq (x : Json.Numeral) (r : Text) :
    ∃ c s, Json.Numeral.fractionText x.fraction ++
        (Json.Numeral.exponentText x.exponent ++ '\n' :: r) = c :: s ∧
      (c = '.' ∨ c = 'e' ∨ c = '\n') := by
  cases x.fraction with
  | some ds => exact ⟨'.', _, rfl, .inl rfl⟩
  | none =>
    cases x.exponent with
    | some p => exact ⟨'e', _, rfl, .inr (.inl rfl)⟩
    | none => exact ⟨'\n', r, rfl, .inr (.inr rfl)⟩

theorem moment_text (r : Text) : moment (x.text ++ '\n' :: r) = none := by
  cases hn : x.negative with
  | true =>
    simp only [Json.Numeral.text, hn, if_true, List.cons_append, List.nil_append]
    exact moment_minus _
  | false =>
    obtain ⟨c, s, rest, hc⟩ := exists_rest_eq x r
    have stop : isDigit c = false ∧ c ≠ '-' ∧ c ≠ ':' := by
      rcases hc with rfl | rfl | rfl <;> decide
    refine moment_eq_none fun d u hu => ?_
    simp only [Json.Numeral.text, Json.Numeral.unsignedText, hn, Bool.false_eq_true, if_false,
      List.nil_append, List.append_assoc, rest] at hu
    rw [List.dropWhile_append_of_pos h.whole.digit,
      List.dropWhile_cons_of_neg (by simp [stop.1])] at hu
    exact (List.cons.inj hu).1 ▸ stop.2

theorem wholeDigits_text (r : Text) : wholeDigits (x.unsignedText ++ '\n' :: r) =
    some (x.whole, Json.Numeral.fractionText x.fraction ++
      (Json.Numeral.exponentText x.exponent ++ '\n' :: r)) := by
  obtain ⟨c, s, rest, hc⟩ := exists_rest_eq x r
  simp only [Json.Numeral.unsignedText, List.append_assoc, rest]
  refine wholeDigits_append h.whole h.leading ?_
  rcases hc with rfl | rfl | rfl <;> rfl

end

/-! ## Numbers with a point or an exponent -/

section

variable {x : Json.Numeral}

theorem exponent_append {below : Bool} {ds : Text} (h : IsDigits ds) (r : Text) :
    exponent (Json.Numeral.exponentText (some (below, ds)) ++ '\n' :: r) =
      some (if below then -(digitsValue ds : Int) else digitsValue ds, '\n' :: r) := by
  have rest := underscored_append h (r := '\n' :: r) rfl
  cases below <;> simp [Json.Numeral.exponentText, exponent, sign, rest]

theorem fraction_append {ds : Text} (h : IsDigits ds) (part : Option (Bool × Text)) (r : Text) :
    fraction (Json.Numeral.fractionText (some ds) ++
        (Json.Numeral.exponentText part ++ '\n' :: r)) =
      some (ds, Json.Numeral.exponentText part ++ '\n' :: r) :=
  underscored_append h (by cases part <;> rfl)

theorem decimalFloat_text (h : x.Proper) (marked : x.fraction.isSome ∨ x.exponent.isSome)
    (finite : Binary64.ofDecimal x.negative x.decimal ≠ .infinite false) (r : Text) :
    decimalFloat (x.text ++ '\n' :: r) =
      some (.float (.ofDecimal x.negative x.decimal), '\n' :: r) := by
  simp only [decimalFloat, sign_text h, wholeDigits_text h, Option.bind_some]
  unfold Json.Numeral.decimal Json.Numeral.exponentValue at finite ⊢
  cases hf : x.fraction with
  | some ds =>
    rw [fraction_append (h.fraction ds hf)]
    cases he : x.exponent with
    | some part =>
      obtain ⟨below, es⟩ := part
      simp only [hf, he, Option.getD_some] at finite
      simp only [exponent_append (h.exponent below es he), Option.bind_some, Option.getD_some,
        finite, if_false]
    | none =>
      simp only [hf, he, Option.getD_some] at finite
      have none : exponent (Json.Numeral.exponentText none ++ '\n' :: r) = none := rfl
      simp only [none, Option.bind_some, Option.getD_some, finite, if_false]
      rfl
  | none =>
    obtain ⟨⟨below, es⟩, he⟩ := Option.isSome_iff_exists.1 (marked.resolve_left (by simp [hf]))
    have point : fraction (Json.Numeral.fractionText none ++
        (Json.Numeral.exponentText (some (below, es)) ++ '\n' :: r)) = none := rfl
    simp only [hf, he, Option.getD_none] at finite
    simp only [he, point]
    simp only [Json.Numeral.fractionText, List.nil_append,
      exponent_append (h.exponent below es he), Option.map_some, Option.bind_some,
      Option.getD_none, finite, if_false]

/-- **A number with a point or an exponent** is read as what it stands for. -/
theorem writes_numeral {y : Binary64} (h : x.Proper)
    (marked : x.fraction.isSome ∨ x.exponent.isSome) (means : x.Means y) :
    Writes x.text (.float y) := by
  have nearest := means.ofDecimal_eq
  have finite : Binary64.ofDecimal x.negative x.decimal ≠ .infinite false := by
    obtain ⟨m, rfl, -⟩ := means
    rw [nearest]
    rintro ⟨⟩
  refine writes_of_startsNumber (startsNumber_text h) (moment_text h) fun r => ?_
  rw [decimalFloat_text h marked finite, nearest]
  rfl

end

/-- A decimal is written with a point and digits behind it. -/
theorem exists_writeDecimal_eq (d : Decimal) :
    ∃ n fraction, numberStyle.writeDecimal d = digits n ++ '.' :: fraction ∧ IsDigits fraction ∧
      (Decimal.mk (digitsValue (digits n ++ fraction)) (-(fraction.length : Int))).value =
        d.value := by
  have positional : numberStyle.isPositional d = true := by simp [Style.isPositional, numberStyle]
  have pointZero : numberStyle.pointZero = true := rfl
  have value := d.value_eq_div
  have text : numberStyle.writeDecimal d =
      pointed (d.coefficient * Nat.pow 10 d.exponent.toNat) d.places ++
        if d.places = 0 then ['.', '0'] else [] := by
    simp [Style.writeDecimal, positional, pointZero, Decimal.positional]
  generalize d.coefficient * Nat.pow 10 d.exponent.toNat = n at value text
  rw [value, text]
  by_cases places : d.places = 0
  · refine ⟨n, ['0'], by simp [pointed, places], isDigits_digits 0, ?_⟩
    rw [digitsValue_concat, digitsValue_digits, show digitValue '0' = 0 from rfl, places]
    simp only [Decimal.value, List.length_singleton]
    push_cast
    ring
  · refine ⟨n / 10 ^ d.places, _, by simp [pointed, places],
      isDigits_paddedDigits d.places (n % 10 ^ d.places), ?_⟩
    rw [digitsValue_whole_append_fraction n (Nat.pos_of_ne_zero places),
      length_paddedDigits (Nat.pos_of_ne_zero places) (Nat.mod_lt _ (by positivity)),
      Decimal.value, zpow_neg, zpow_natCast]
    rfl

/-- **A finite number is read back.** -/
theorem writes_float {x : Binary64} (hx : x.isFinite = true) :
    Writes (numberStyle.write x) (.float x) := by
  cases x with
  | nan => cases hx
  | infinite negative => cases hx
  | finite negative x =>
    obtain ⟨n, fraction, text, digits, value⟩ := exists_writeDecimal_eq (x.shortest numberStyle.tie)
    have number := writesNat_digits n
    have proper : Json.Numeral.Proper ⟨negative, Number.digits n, some fraction, none⟩ := by
      refine ⟨number.toIsDigits, number.leading, ?_, by rintro below ds ⟨⟩⟩
      rintro ds ⟨⟩
      exact digits
    have written : numberStyle.write (.finite negative x) =
        Json.Numeral.text ⟨negative, Number.digits n, some fraction, none⟩ := by
      rw [Style.write, text]
      simp [Json.Numeral.text, Json.Numeral.unsignedText, Json.Numeral.fractionText,
        Json.Numeral.exponentText]
    have decimal : Json.Numeral.decimal ⟨negative, Number.digits n, some fraction, none⟩ =
        ⟨digitsValue (Number.digits n ++ fraction), -(fraction.length : Int)⟩ := by
      simp [Json.Numeral.decimal, Json.Numeral.exponentValue]
    rw [written]
    refine writes_numeral proper (.inl rfl) ⟨x, rfl, ?_⟩
    rw [decimal, value]
    exact x.covers_shortest numberStyle.tie

/-! ## Whole numbers -/

section

variable {x : Json.Numeral} (h : x.Proper) (hf : x.fraction = none) (he : x.exponent = none)

include h hf he

theorem decimalFloat_whole (r : Text) : decimalFloat (x.text ++ '\n' :: r) = none := by
  have point : fraction ('\n' :: r) = none := rfl
  have letter : exponent ('\n' :: r) = none := rfl
  simp only [decimalFloat, sign_text h, wholeDigits_text h, hf, he, Json.Numeral.fractionText,
    Json.Numeral.exponentText, List.nil_append, Option.bind_some, point, letter, Option.map_none,
    Option.bind_none]

omit hf he in
theorem specialFloat_text (r : Text) : specialFloat (x.text ++ '\n' :: r) = none := by
  obtain ⟨c, s, hs, hc⟩ := exists_text_eq h
  rw [specialFloat, sign_text h, hs]
  dsimp only
  split
  · rename_i heq
    exact absurd (List.cons.inj heq).1 (ne_of_startsNumber (.inr hc) (by decide))
  · rename_i heq
    exact absurd (List.cons.inj heq).1 (ne_of_startsNumber (.inr hc) (by decide))
  · rfl

/-- The digits of a number hold no letter of a base. -/
theorem text_ne_base {c : Char} (hc : isDigit c = false ∧ c ≠ '\n') (r s : Text) :
    x.text ++ '\n' :: r ≠ '0' :: c :: s := by
  intro heq
  simp only [Json.Numeral.text, Json.Numeral.unsignedText, hf, he, Json.Numeral.fractionText,
    Json.Numeral.exponentText, List.append_nil] at heq
  cases hn : x.negative with
  | true =>
    simp only [hn, if_true, List.cons_append] at heq
    exact absurd (List.cons.inj heq).1 (by decide)
  | false =>
    simp only [hn, Bool.false_eq_true, if_false, List.nil_append] at heq
    obtain ⟨d, ds, hd⟩ := List.exists_cons_of_ne_nil h.whole.ne_nil
    rw [hd, List.cons_append] at heq
    -- behind a first digit comes another digit or the end of the line
    cases ds with
    | nil => exact hc.2 (List.cons.inj (List.cons.inj heq).2).1.symm
    | cons e ds =>
      have digit : isDigit e = true := h.whole.digit e (by rw [hd]; simp)
      rw [(List.cons.inj (List.cons.inj heq).2).1] at digit
      exact absurd digit (by simp [hc.1])

theorem integer_text {i : Int}
    (hi : (if x.negative then -(digitsValue x.whole : Int) else digitsValue x.whole) = i)
    (low : leastInteger ≤ i) (high : i ≤ greatestInteger) (r : Text) :
    integer (x.text ++ '\n' :: r) = some (.integer i, '\n' :: r) := by
  unfold integer
  split
  case h_4 =>
    simp [sign_text h, wholeDigits_text h, hf, he, Json.Numeral.fractionText,
      Json.Numeral.exponentText, hi, low, high]
  all_goals
    rename_i heq
    exact absurd heq (text_ne_base h hf he (by decide) _ _)

end

/-- **A whole number** of 64 bits with a sign is read as what it is. -/
theorem writes_whole {x : Json.Numeral} {i : Int} (h : x.Proper) (hi : x.toInt? = some i)
    (high : i ≤ greatestInteger) : Writes x.text (.integer i) := by
  obtain ⟨fraction, exponent, digits, sign, low⟩ := Json.Numeral.of_toInt?_eq_some hi
  have value : (if x.negative then -(digitsValue x.whole : Int) else digitsValue x.whole) = i := by
    rw [sign, ← digits]
    split <;> simp_all <;> omega
  refine writes_of_startsNumber (startsNumber_text h) (moment_text h) fun r => ?_
  rw [decimalFloat_whole h fraction exponent, specialFloat_text h,
    integer_text h fraction exponent value low high]
  rfl

/-- A natural number of at most 63 bits. -/
theorem writes_integer {n : Nat} (h : (n : Int) ≤ greatestInteger) :
    Writes (digits n) (.integer n) := by
  have few : n ≤ Json.Numeral.greatest := by
    unfold greatestInteger at h
    unfold Json.Numeral.greatest
    omega
  rw [← Json.text_naturalOf]
  exact writes_whole (Json.proper_naturalOf n) (Json.toInt?_naturalOf few) h

theorem writes_boolean (b : Bool) : Writes (Json.boolean b) (.boolean b) := by
  cases b
  · exact ⟨fun r => rfl, 'f', _, rfl, by decide, by decide, by decide⟩
  · exact ⟨fun r => rfl, 't', _, rfl, by decide, by decide, by decide⟩

end DrillPost.Toml
