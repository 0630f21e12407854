import DrillPost.Json.Printer
import DrillPost.Json.Reader
import DrillPost.Proofs.Json.Numerals

/-!
# Written numbers are read

A finite number is written with its shortest digits, by position or with an exponent. It is read as
these digits scaled by a power of ten, and that takes two roundings: one of the digits to a double,
and one of the product or the quotient. As long as the digits are below `2 ^ 53` and the power of
ten is one of the first 22, the first rounding is none, and the number is read back; beyond that
it may have moved.

* `Numeral.text`, `numeral_text`: a number as a text, and its reading;
* `numeralOf`: the number that a decimal is written as (`unsignedText_numeralOf`);
* `significandOf`, `shiftOf`: the digits that are read, and the power of ten;
* `reread`, `numeral_write`: what a number is read as once it has been written;
* `reread_eq_some`: the numbers that are read back.
-/

namespace DrillPost.Json

open Number

/-! ## Numerals as texts -/

namespace Numeral

/-- A fraction with the point in front of it. -/
def fractionText : Option Text → Text
  | some ds => '.' :: ds
  | none => []

/-- An exponent behind its letter and its sign. -/
def exponentText : Option (Bool × Text) → Text
  | some (below, ds) => 'e' :: (if below then '-' else '+') :: ds
  | none => []

/-- The text of a number without its sign. -/
def unsignedText (x : Numeral) : Text :=
  x.whole ++ (fractionText x.fraction ++ exponentText x.exponent)

/-- The text of a number. -/
def text (x : Numeral) : Text := (if x.negative then ['-'] else []) ++ x.unsignedText

/-- The grammar of numbers: there are digits in all parts, and no zeros in front. -/
structure Proper (x : Numeral) : Prop where
  whole : IsDigits x.whole
  leading : x.whole.head? = some '0' → x.whole = ['0']
  fraction : ∀ ds, x.fraction = some ds → IsDigits ds
  exponent : ∀ below ds, x.exponent = some (below, ds) → IsDigits ds

end Numeral

/-- A text that does not go on with a number. -/
def Stops (t : Text) : Prop :=
  t.head?.all (fun c => !(isDigit c || c == '.' || c == 'e' || c == 'E')) = true

theorem isDigit_of_head {t : Text} (h : IsDigits t) : ∃ c r, t = c :: r ∧ isDigit c = true := by
  obtain ⟨c, r, rfl⟩ := List.exists_cons_of_ne_nil h.ne_nil
  exact ⟨c, r, rfl, h.digit c List.mem_cons_self⟩

theorem digits1_append {ds : Text} (h : IsDigits ds) {r : Text}
    (hr : r.head?.all (!isDigit ·) = true) : digits1 (ds ++ r) = some (ds, r) := by
  rw [digits1, spanDigits_append h.digit hr]
  cases ds with
  | nil => exact absurd rfl h.ne_nil
  | cons c ds => rfl

theorem wholeDigits_append {ds : Text} (h : IsDigits ds) (hl : ds.head? = some '0' → ds = ['0'])
    {r : Text} (hr : r.head?.all (!isDigit ·) = true) : wholeDigits (ds ++ r) = some (ds, r) := by
  by_cases zero : ds.head? = some '0'
  · rw [hl zero]
    cases r with
    | nil => rfl
    | cons c r =>
      have hc : isDigit c = false := by simpa using hr
      simp [wholeDigits, hc]
  · rw [← digits1_append h hr]
    obtain ⟨c, w, rfl, -⟩ := isDigit_of_head h
    have hc : c ≠ '0' := by simpa using zero
    rw [List.cons_append, wholeDigits]
    rintro r' ⟨⟩
    exact hc rfl

theorem fractionDigits_append {part : Option Text} (h : ∀ ds, part = some ds → IsDigits ds)
    {r : Text} (hr : r.head?.all (fun c => !(isDigit c || c == '.')) = true) :
    fractionDigits (Numeral.fractionText part ++ r) = some (part, r) := by
  cases part with
  | some ds =>
    have stop : r.head?.all (!isDigit ·) = true := by
      cases r <;> simp_all
    simp only [Numeral.fractionText, List.cons_append, fractionDigits,
      digits1_append (h ds rfl) stop, Option.map_some]
  | none =>
    rw [Numeral.fractionText, List.nil_append]
    cases r with
    | nil => rfl
    | cons c r =>
      rw [fractionDigits]
      rintro r' ⟨⟩
      simp at hr

theorem exponentPart_append {part : Option (Bool × Text)}
    (h : ∀ below ds, part = some (below, ds) → IsDigits ds) {r : Text} (hr : Stops r) :
    exponentPart (Numeral.exponentText part ++ r) = some (part, r) := by
  cases part with
  | some p =>
    obtain ⟨below, ds⟩ := p
    have stop : r.head?.all (!isDigit ·) = true := by
      unfold Stops at hr
      cases r <;> simp_all
    have rest := digits1_append (h below ds rfl) stop
    cases below <;> simp [Numeral.exponentText, exponentPart, rest]
  | none =>
    rw [Numeral.exponentText, List.nil_append]
    unfold Stops at hr
    cases r with
    | nil => rfl
    | cons c r =>
      rw [exponentPart]
      · rintro r' ⟨⟩
        simp at hr
      · rintro r' ⟨⟩
        simp at hr

/-- The parts of a number behind its sign are read one after the other. -/
theorem parts_unsignedText {x : Numeral} (h : x.Proper) {r : Text} (hr : Stops r) :
    ((wholeDigits (x.unsignedText ++ r)).bind fun (whole, r) =>
      (fractionDigits r).bind fun (fraction, r) =>
        (exponentPart r).map fun (exponent, r) =>
          ((⟨x.negative, whole, fraction, exponent⟩ : Numeral), r)) = some (x, r) := by
  have exponent := exponentPart_append h.exponent hr
  have stop : ((Numeral.exponentText x.exponent ++ r).head?.all
      fun c => !(isDigit c || c == '.')) = true := by
    unfold Stops at hr
    cases x.exponent with
    | some p => rfl
    | none => cases r <;> simp_all [Numeral.exponentText]
  have fraction := fractionDigits_append h.fraction stop
  have start : ((Numeral.fractionText x.fraction ++
      (Numeral.exponentText x.exponent ++ r)).head?.all (!isDigit ·)) = true := by
    cases x.fraction with
    | some ds => rfl
    | none =>
      rw [Numeral.fractionText, List.nil_append]
      revert stop
      cases List.head? _ <;> simp_all
  have whole := wholeDigits_append h.whole h.leading start
  simp only [Numeral.unsignedText, List.append_assoc, whole, fraction, exponent, Option.bind_some,
    Option.map_some]

/-- **The text of a number is read** as this number. -/
theorem numeral_text {x : Numeral} (h : x.Proper) {r : Text} (hr : Stops r) :
    numeral (x.text ++ r) = some (x, r) := by
  rw [← parts_unsignedText h hr]
  cases hn : x.negative with
  | true => simp [numeral, Numeral.text, hn]
  | false =>
    obtain ⟨c, w, hw, digit⟩ := isDigit_of_head h.whole
    have sign : c ≠ '-' := by
      rintro rfl
      exact absurd digit (by decide)
    simp only [Numeral.text, hn, Bool.false_eq_true, if_false, List.nil_append]
    rw [Numeral.unsignedText, hw, List.cons_append, List.cons_append]
    unfold numeral
    split
    rename_i heq
    split at heq
    · rename_i hc
      exact absurd (List.cons.inj hc).1 sign
    · cases heq
      rfl

/-! ## Decimals as they are written -/

/-- Whether a decimal is written without an exponent, as a whole number with a zero behind its
point. -/
def isPointZero (d : Decimal) : Bool := numberStyle.isPositional d && d.places == 0

/-- The number whose text a decimal is written as. -/
def numeralOf (negative : Bool) (d : Decimal) : Numeral :=
  let scale := 10 ^ d.places
  if isPointZero d then
    { negative, whole := digits (d.coefficient * 10 ^ d.exponent.toNat), fraction := some ['0'] }
  else if numberStyle.isPositional d then
    { negative, whole := digits (d.coefficient / scale),
      fraction := some (paddedDigits d.places (d.coefficient % scale)) }
  else
    { negative, whole := (digits d.coefficient).take 1,
      fraction := some ((digits d.coefficient).drop 1) |>.filter (!·.isEmpty),
      exponent := some (d.leading < 0, digits d.leading.natAbs) }

/-- The digits of a decimal as it is written, with the zero behind the point if there is one. -/
def significandOf (d : Decimal) : Nat :=
  if isPointZero d then d.coefficient * 10 ^ (d.exponent.toNat + 1) else d.coefficient

/-- The power of ten by which these digits are scaled. -/
def shiftOf (d : Decimal) : Int := if isPointZero d then -1 else d.exponent

section

variable (negative : Bool) {d : Decimal}

theorem isPointZero_iff : isPointZero d = true ↔
    numberStyle.isPositional d = true ∧ d.places = 0 := by
  simp [isPointZero]

theorem coefficient_ne_zero (h : numberStyle.isPositional d = false) : d.coefficient ≠ 0 := by
  intro zero
  simp [Style.isPositional, zero] at h

theorem places_eq_neg (h : d.places ≠ 0) :
    d.exponent = -(d.places : Int) ∧ d.exponent.toNat = 0 := by
  unfold Decimal.places at *
  omega

theorem numeralOf_of_isPointZero (h : isPointZero d = true) :
    numeralOf negative d =
      { negative, whole := digits (d.coefficient * 10 ^ d.exponent.toNat),
        fraction := some ['0'] } := by
  simp [numeralOf, h]

theorem numeralOf_of_isPositional (h : isPointZero d = false)
    (hp : numberStyle.isPositional d = true) :
    numeralOf negative d =
      { negative, whole := digits (d.coefficient / 10 ^ d.places),
        fraction := some (paddedDigits d.places (d.coefficient % 10 ^ d.places)) } := by
  simp [numeralOf, h, hp]

/-- A decimal that is written with an exponent has a first digit, and others behind it. -/
theorem exists_numeralOf_eq (hp : numberStyle.isPositional d = false) :
    ∃ c r, digits d.coefficient = c :: r ∧ c ≠ '0' ∧
      numeralOf negative d =
        { negative, whole := [c], fraction := if r = [] then none else some r,
          exponent := some (d.leading < 0, digits d.leading.natAbs) } := by
  obtain ⟨c, r, hd⟩ := List.exists_cons_of_ne_nil (digits_ne_nil d.coefficient)
  have point : isPointZero d = false := by simp [isPointZero, hp]
  refine ⟨c, r, hd, fun zero => ?_, ?_⟩
  · have none := eq_zero_of_head_digits (n := d.coefficient) (by simp [hd, zero])
    simp [Style.isPositional, none] at hp
  · cases r <;> simp [numeralOf, point, hp, hd, Option.filter]

theorem negative_numeralOf (d : Decimal) : (numeralOf negative d).negative = negative := by
  unfold numeralOf
  dsimp only
  split
  · rfl
  · split <;> rfl

theorem places_ne_zero (h : isPointZero d = false) (hp : numberStyle.isPositional d = true) :
    d.places ≠ 0 := fun places => by
  rw [isPointZero_iff.2 ⟨hp, places⟩] at h
  cases h

/-- **The text of a decimal** is that of its number. -/
theorem unsignedText_numeralOf (d : Decimal) :
    (numeralOf negative d).unsignedText = numberStyle.writeDecimal d := by
  have pointZero : numberStyle.pointZero = true := rfl
  cases whole : isPointZero d with
  | true =>
    obtain ⟨positional, places⟩ := isPointZero_iff.1 whole
    rw [numeralOf_of_isPointZero negative whole]
    simp [Numeral.unsignedText, Numeral.fractionText, Numeral.exponentText, Style.writeDecimal,
      positional, pointZero, places, Decimal.positional, pointed]
  | false =>
    cases positional : numberStyle.isPositional d with
    | true =>
      have places := places_ne_zero whole positional
      rw [numeralOf_of_isPositional negative whole positional]
      simp [Numeral.unsignedText, Numeral.fractionText, Numeral.exponentText, Style.writeDecimal,
        positional, places, Decimal.positional, pointed, (places_eq_neg places).2]
    | false =>
      obtain ⟨c, r, hd, -, eq⟩ := exists_numeralOf_eq negative positional
      have plus : numberStyle.plus = true := rfl
      rw [eq]
      by_cases below : d.leading < 0 <;> cases r <;>
        simp [Numeral.unsignedText, Numeral.fractionText, Numeral.exponentText,
          Style.writeDecimal, Decimal.scientific, positional, hd, plus, below]

theorem proper_numeralOf (d : Decimal) : (numeralOf negative d).Proper := by
  cases whole : isPointZero d with
  | true =>
    rw [numeralOf_of_isPointZero negative whole]
    have number := writesNat_digits (d.coefficient * 10 ^ d.exponent.toNat)
    refine ⟨number.toIsDigits, number.leading, ?_, ?_⟩
    · rintro ds ⟨⟩
      exact isDigits_digits 0
    · rintro below ds ⟨⟩
  | false =>
    cases positional : numberStyle.isPositional d with
    | true =>
      rw [numeralOf_of_isPositional negative whole positional]
      have number := writesNat_digits (d.coefficient / 10 ^ d.places)
      refine ⟨number.toIsDigits, number.leading, ?_, ?_⟩
      · rintro ds ⟨⟩
        exact isDigits_paddedDigits _ _
      · rintro below ds ⟨⟩
    | false =>
      obtain ⟨c, r, hd, first, eq⟩ := exists_numeralOf_eq negative positional
      have digit : ∀ x ∈ c :: r, isDigit x = true := hd ▸ (isDigits_digits d.coefficient).digit
      rw [eq]
      refine ⟨⟨by simp, by simpa using digit c List.mem_cons_self⟩, by simp, ?_, ?_⟩
      · intro ds hds
        dsimp only at hds
        split_ifs at hds with rest
        cases hds
        exact ⟨rest, fun x hx => digit x (List.mem_cons_of_mem c hx)⟩
      · rintro below ds ⟨⟩
        exact isDigits_digits _

/-- The digits of a decimal, as they are read. -/
theorem digitsValue_numeralOf (d : Decimal) :
    digitsValue ((numeralOf negative d).whole ++ (numeralOf negative d).fraction.getD []) =
      significandOf d := by
  unfold significandOf
  cases whole : isPointZero d with
  | true =>
    rw [numeralOf_of_isPointZero negative whole, if_pos rfl]
    simp only [Option.getD_some]
    rw [digitsValue_concat, digitsValue_digits, show digitValue '0' = 0 from rfl]
    ring
  | false =>
    rw [if_neg Bool.false_ne_true]
    cases positional : numberStyle.isPositional d with
    | true =>
      rw [numeralOf_of_isPositional negative whole positional]
      exact digitsValue_whole_append_fraction _
        (Nat.pos_of_ne_zero (places_ne_zero whole positional))
    | false =>
      obtain ⟨c, r, hd, -, eq⟩ := exists_numeralOf_eq negative positional
      rw [eq, ← digitsValue_digits d.coefficient, hd]
      cases r <;> rfl

/-- The power of ten by which they are scaled. -/
theorem shift_numeralOf (d : Decimal) :
    (numeralOf negative d).exponentValue - ((numeralOf negative d).fraction.getD []).length =
      shiftOf d := by
  unfold shiftOf
  cases whole : isPointZero d with
  | true =>
    rw [numeralOf_of_isPointZero negative whole, if_pos rfl]
    rfl
  | false =>
    rw [if_neg Bool.false_ne_true]
    cases positional : numberStyle.isPositional d with
    | true =>
      have places := places_ne_zero whole positional
      rw [numeralOf_of_isPositional negative whole positional]
      simp only [Numeral.exponentValue, Option.getD_some]
      rw [length_paddedDigits (Nat.pos_of_ne_zero places) (Nat.mod_lt _ (by positivity)),
        (places_eq_neg places).1]
      omega
    | false =>
      obtain ⟨c, r, hd, -, eq⟩ := exists_numeralOf_eq negative positional
      have leading : d.leading = r.length + d.exponent := by simp [Decimal.leading, hd]
      have length : ((if r = [] then none else some r : Option Text).getD []).length =
          r.length := by
        cases r <;> rfl
      rw [eq]
      simp only [Numeral.exponentValue, digitsValue_digits, length]
      by_cases below : d.leading < 0
      · simp only [below, decide_true, if_true]
        omega
      · simp only [below, decide_false, Bool.false_eq_true, if_false]
        omega

theorem decimal_numeralOf (d : Decimal) :
    (numeralOf negative d).decimal = ⟨significandOf d, shiftOf d⟩ := by
  rw [Numeral.decimal, digitsValue_numeralOf, shift_numeralOf]

/-- The digits and the power of ten stand for the value of the decimal. -/
theorem value_significandOf (d : Decimal) :
    (Decimal.mk (significandOf d) (shiftOf d)).value = d.value := by
  unfold significandOf shiftOf
  cases whole : isPointZero d with
  | true =>
    have places := (isPointZero_iff.1 whole).2
    have exponent : d.exponent = d.exponent.toNat := by
      unfold Decimal.places at places
      omega
    rw [if_pos rfl, if_pos rfl, Decimal.value, Decimal.value]
    conv_rhs => rw [exponent]
    rw [zpow_natCast]
    push_cast
    rw [pow_succ, zpow_neg_one]
    ring
  | false => rfl

end

/-! ## Natural numbers -/

/-- The digits of a natural number. -/
def naturalOf (n : Nat) : Numeral := { negative := false, whole := digits n }

theorem proper_naturalOf (n : Nat) : (naturalOf n).Proper := by
  have number := writesNat_digits n
  exact ⟨number.toIsDigits, number.leading, by rintro ds ⟨⟩, by rintro below ds ⟨⟩⟩

theorem text_naturalOf (n : Nat) : (naturalOf n).text = digits n := by
  simp [naturalOf, Numeral.text, Numeral.unsignedText, Numeral.fractionText,
    Numeral.exponentText]

theorem counts_naturalOf (n : Nat) : (naturalOf n).Counts n :=
  ⟨rfl, rfl, rfl, digitsValue_digits n⟩

theorem toInt?_naturalOf {n : Nat} (h : n ≤ Numeral.greatest) :
    (naturalOf n).toInt? = some (n : Int) := (counts_naturalOf n).toInt?_eq h

/-! ## Numbers that are written and read -/

theorem length_digits {n : Nat} (h : n ≠ 0) : (digits n).length = countDigits n := by
  have positive : 0 < countDigits n := by
    rw [countDigits_eq, digitCount, dif_neg h]
    exact Nat.succ_pos _
  refine le_antisymm ((Nat.length_toDigits_le_iff (by decide) positive).2 ?_) ?_
  · rw [countDigits_eq]
    exact lt_ten_pow_digitCount n
  · have some_digit : 0 < (digits n).length := List.length_pos_of_ne_nil (digits_ne_nil n)
    have upper : n < 10 ^ (digits n).length :=
      (Nat.length_toDigits_le_iff (by decide) some_digit).1 le_rfl
    have lower := ten_pow_digitCount_le h
    rw [countDigits_eq]
    refine Nat.le_of_lt_succ ((Nat.pow_lt_pow_iff_right (a := 10) (by decide)).1 ?_)
    rw [Nat.pow_succ]
    omega

/-- What a finite number is read as once it has been written: two roundings may have moved it, and
there is none if it has grown beyond the greatest number. -/
def reread : Binary64 → Option Binary64
  | .finite negative x =>
    let d := x.shortest numberStyle.tie
    ((Magnitude.ofNat (significandOf d)).bind (Numeral.scale · (shiftOf d))).map
      (.finite negative)
  | _ => none

theorem significandOf_shortest_le (x : Magnitude) :
    significandOf (x.shortest numberStyle.tie) ≤ Numeral.greatest := by
  have short := x.coefficient_shortest_le numberStyle.tie
  generalize x.shortest numberStyle.tie = d at short ⊢
  unfold significandOf
  split_ifs with whole
  · by_cases zero : d.coefficient = 0
    · simp [zero]
    obtain ⟨positional, places⟩ := isPointZero_iff.1 whole
    have range : d.leading < 16 := by
      have : (d.coefficient == 0) = false := by simpa using zero
      simp only [Style.isPositional, this, Bool.false_or, numberStyle, Bool.and_eq_true,
        decide_eq_true_eq] at positional
      exact positional.2
    have total : (digits d.coefficient).length + (d.exponent.toNat + 1) ≤ 17 := by
      unfold Decimal.leading at range
      unfold Decimal.places at places
      omega
    have few : d.coefficient < 10 ^ (digits d.coefficient).length :=
      (Nat.length_toDigits_le_iff (by decide)
        (List.length_pos_of_ne_nil (digits_ne_nil _))).1 le_rfl
    calc d.coefficient * 10 ^ (d.exponent.toNat + 1)
        ≤ 10 ^ (digits d.coefficient).length * 10 ^ (d.exponent.toNat + 1) :=
          Nat.mul_le_mul_right _ few.le
      _ = 10 ^ ((digits d.coefficient).length + (d.exponent.toNat + 1)) := (Nat.pow_add ..).symm
      _ ≤ 10 ^ 17 := Nat.pow_le_pow_right (by decide) total
      _ ≤ Numeral.greatest := by decide
  · exact short.trans (by decide)

/-- The exponent of a number that is written with one is small. -/
theorem natAbs_leading_shortest_le {x : Magnitude}
    (h : numberStyle.isPositional (x.shortest numberStyle.tie) = false) :
    (x.shortest numberStyle.tie).leading.natAbs ≤ Numeral.greatestExponent := by
  have nonzero := coefficient_ne_zero h
  have range := x.countDigits_add_exponent_shortest numberStyle.tie nonzero
  generalize x.shortest numberStyle.tie = d at nonzero range ⊢
  rw [Decimal.leading, length_digits nonzero]
  unfold Numeral.greatestExponent
  omega

/-- **A number that is written is read** as what the two roundings make of it. -/
theorem numeral_write {x : Binary64} (hx : x.isFinite = true) :
    ∃ n, (∀ r, Stops r → numeral (numberStyle.write x ++ r) = some (n, r)) ∧
      n.toBinary64? = reread x := by
  cases x with
  | nan => cases hx
  | infinite negative => cases hx
  | finite negative x =>
    have significand := significandOf_shortest_le x
    have exponent := natAbs_leading_shortest_le (x := x)
    rw [Style.write, reread]
    generalize x.shortest numberStyle.tie = d at significand exponent ⊢
    have text : (if negative then ['-'] else []) ++ numberStyle.writeDecimal d =
        (numeralOf negative d).text := by
      rw [← unsignedText_numeralOf negative d, Numeral.text, negative_numeralOf]
    refine ⟨numeralOf negative d,
      fun r hr => text ▸ numeral_text (proper_numeralOf negative d) hr, ?_⟩
    rw [Numeral.toBinary64?_of_short, decimal_numeralOf, negative_numeralOf]
    · rwa [decimal_numeralOf]
    · intro below ds hp
      cases positional : numberStyle.isPositional d with
      | false =>
        obtain ⟨c, r, -, -, eq⟩ := exists_numeralOf_eq negative positional
        rw [eq] at hp
        cases hp
        rw [digitsValue_digits]
        exact exponent positional
      | true =>
        cases whole : isPointZero d with
        | true =>
          rw [numeralOf_of_isPointZero negative whole] at hp
          cases hp
        | false =>
          rw [numeralOf_of_isPositional negative whole positional] at hp
          cases hp

/-- **Short numbers are read exactly.** -/
theorem reread_eq_some {negative : Bool} {x : Magnitude}
    (hn : significandOf (x.shortest numberStyle.tie) < significandEnd)
    (hk : (shiftOf (x.shortest numberStyle.tie)).natAbs ≤ Numeral.greatestPower) :
    reread (.finite negative x) = some (.finite negative x) := by
  have covers := x.covers_shortest numberStyle.tie
  rw [reread]
  generalize x.shortest numberStyle.tie = d at hn hk covers ⊢
  rw [← value_significandOf] at covers
  rw [Numeral.scale_eq_some hn hk covers, Option.map_some]

end DrillPost.Json
