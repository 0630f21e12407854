import DrillPost.Excellon.Integer
import DrillPost.Proofs.Number.Digits
import DrillPost.Proofs.Text.Runs

/-!
# Texts that begin with a number

A number at the start of a text is made of blanks, at most one sign and digits, as many as there
are; what follows them is not looked at. It is read when its digits write no more than `2 ^ 63 - 1`,
whatever the sign. So of the whole numbers with 64 bits the least one, `-2 ^ 63`, is refused, and
all the others are read.

* `NumberAtStart`: a text that begins with a number, and what follows it (`numberAtStart_iff`: how
  such a text is taken apart);
* `NumberAtStart.exists_written`: what follows a number may be exchanged;
* `leadingInteger_eq_some_iff_numberAtStart`: the numbers that are read;
* `FitsWord`, `ReadsWords`: reading every whole number of 64 bits;
* `leadingInteger_eq_some_iff_fitsWord`: which texts are read as numbers, and which are not.
-/

namespace DrillPost.Excellon

open Number

/-! ## Numbers at the start of a text -/

/-- A sign in front of digits, or none; the flag is true for minus. -/
inductive Sign : Bool → Text → Prop
  | none : Sign false []
  | plus : Sign false ['+']
  | minus : Sign true ['-']

/-- A text that begins with a whole number: blanks, at most one sign, and digits, as many as there
are. `rest` is what follows them. -/
inductive NumberAtStart : Text → Int → Text → Prop
  | intro {blanks sign ds rest : Text} {negative : Bool}
      (hb : ∀ c ∈ blanks, Text.isBlank c = true) (hs : Sign negative sign) (hd : IsDigits ds)
      (he : EndsRun isDigit rest) :
      NumberAtStart (blanks ++ (sign ++ (ds ++ rest))) (signed negative (digitsValue ds)) rest

@[simp] theorem natAbs_signed (negative : Bool) (n : Nat) : (signed negative n).natAbs = n := by
  cases negative <;> simp [signed]

/-- A number is its magnitude with its sign. -/
theorem signed_natAbs (i : Int) : signed (i < 0) i.natAbs = i := by
  unfold signed
  split_ifs with negative
  · rw [decide_eq_true_eq] at negative
    omega
  · rw [decide_eq_true_eq] at negative
    omega

theorem isBlank_eq_false_of_isDigit {c : Char} (h : isDigit c = true) : Text.isBlank c = false := by
  have range := Char.isDigit_iff_toNat.1 h
  simp only [Char.reduceToNat] at range
  simp only [Text.isBlank]
  grind

/-- What follows the blanks in front of a number is not blank. -/
theorem Sign.endsRun_isBlank {negative : Bool} {sign ds : Text} (hs : Sign negative sign)
    (hd : IsDigits ds) (rest : Text) : EndsRun Text.isBlank (sign ++ (ds ++ rest)) := by
  obtain ⟨d, ds, rfl⟩ := List.exists_cons_of_ne_nil hd.ne_nil
  cases hs with
  | none => exact (endsRun_cons ..).2 (isBlank_eq_false_of_isDigit (hd.digit d (by simp)))
  | plus => exact (endsRun_cons ..).2 (by decide)
  | minus => exact (endsRun_cons ..).2 (by decide)

/-- The sign in front of digits is the one that is read. -/
theorem Sign.signOf_append {negative : Bool} {sign ds : Text} (hs : Sign negative sign)
    (hd : IsDigits ds) (rest : Text) : signOf (sign ++ (ds ++ rest)) = (negative, ds ++ rest) := by
  obtain ⟨d, ds, rfl⟩ := List.exists_cons_of_ne_nil hd.ne_nil
  have digit : isDigit d = true := hd.digit d (by simp)
  cases hs with
  | none =>
    change signOf (d :: (ds ++ rest)) = _
    unfold signOf
    split
    · next h =>
      rw [(List.cons.inj h).1] at digit
      exact absurd digit (by decide)
    · next h =>
      rw [(List.cons.inj h).1] at digit
      exact absurd digit (by decide)
    · rfl
  | plus => rfl
  | minus => rfl

theorem exists_sign (t : Text) : ∃ sign, Sign (signOf t).1 sign ∧ t = sign ++ (signOf t).2 := by
  unfold signOf
  split
  · exact ⟨['-'], .minus, rfl⟩
  · exact ⟨['+'], .plus, rfl⟩
  · exact ⟨[], .none, rfl⟩

/-- **A text that begins with a number** is taken apart in one way: the blanks are dropped, then the
sign, and the digits in front of the rest are the number. -/
theorem numberAtStart_iff {raw rest : Text} {i : Int} :
    NumberAtStart raw i rest ↔
      let (negative, r) := signOf (Text.trimLeft raw)
      r.takeWhile isDigit ≠ [] ∧ i = signed negative (digitsValue (r.takeWhile isDigit)) ∧
        rest = r.dropWhile isDigit := by
  constructor
  · intro h
    obtain ⟨hb, hs, hd, he⟩ := h
    rw [Text.trimLeft, dropWhile_append_of_endsRun hb (hs.endsRun_isBlank hd _),
      hs.signOf_append hd]
    dsimp only
    rw [takeWhile_append_of_endsRun hd.digit he, dropWhile_append_of_endsRun hd.digit he]
    exact ⟨hd.ne_nil, rfl, rfl⟩
  · intro h
    obtain ⟨sign, hs, text⟩ := exists_sign (Text.trimLeft raw)
    generalize signOf (Text.trimLeft raw) = parts at h hs text
    obtain ⟨negative, r⟩ := parts
    obtain ⟨some, rfl, rfl⟩ := h
    have whole : raw = raw.takeWhile Text.isBlank ++
        (sign ++ (r.takeWhile isDigit ++ r.dropWhile isDigit)) := by
      rw [List.takeWhile_append_dropWhile, ← text, Text.trimLeft,
        List.takeWhile_append_dropWhile]
    rw [whole]
    exact .intro (fun _ => List.mem_takeWhile_imp) hs
      ⟨some, fun _ => List.mem_takeWhile_imp⟩ (endsRun_dropWhile _ _)

/-- A text begins with one number at most. -/
theorem NumberAtStart.unique {raw rest rest' : Text} {i j : Int} (h : NumberAtStart raw i rest)
    (k : NumberAtStart raw j rest') : i = j ∧ rest = rest' := by
  rw [numberAtStart_iff] at h k
  exact ⟨h.2.1.trans k.2.1.symm, h.2.2.trans k.2.2.symm⟩

theorem NumberAtStart.endsRun {raw rest : Text} {i : Int} (h : NumberAtStart raw i rest) :
    EndsRun isDigit rest := by
  obtain ⟨-, -, -, he⟩ := h
  exact he

/-- A character that a number may be written with. -/
def IsNumeric (c : Char) : Prop := Text.isBlank c = true ∨ c = '+' ∨ c = '-' ∨ isDigit c = true

/-- **What follows a number may be exchanged** for any text that does not begin with a digit. -/
theorem NumberAtStart.exists_written {raw rest : Text} {i : Int} (h : NumberAtStart raw i rest) :
    ∃ written, raw = written ++ rest ∧ written ≠ [] ∧ (∀ c ∈ written, IsNumeric c) ∧
      ∀ other, EndsRun isDigit other → NumberAtStart (written ++ other) i other := by
  obtain ⟨hb, hs, hd, he⟩ := h
  rename_i blanks sign ds negative
  refine ⟨blanks ++ (sign ++ ds), by simp, by simp [hd.ne_nil], ?_, fun other ho => ?_⟩
  · have numeric : ∀ c ∈ sign, IsNumeric c := by
      cases hs <;> simp [IsNumeric]
    simp only [List.forall_mem_append]
    exact ⟨fun c hc => .inl (hb c hc), numeric, fun c hc => .inr (.inr (.inr (hd.digit c hc)))⟩
  · simpa using NumberAtStart.intro hb hs hd ho

/-! ## Numbers that are read -/

/-- **The numbers that are read** are those at the start of the text whose digits write at most
`2 ^ 63 - 1`. -/
theorem leadingInteger_eq_some_iff_numberAtStart {raw : Text} {i : Int} :
    leadingInteger raw = some i ↔
      (∃ rest, NumberAtStart raw i rest) ∧ i.natAbs ≤ greatestMagnitude := by
  simp only [leadingInteger_eq_some_iff, numberAtStart_iff]
  generalize signOf (Text.trimLeft raw) = parts
  obtain ⟨negative, r⟩ := parts
  constructor
  · rintro ⟨some, least, rfl⟩
    exact ⟨⟨_, some, rfl, rfl⟩, by rwa [natAbs_signed]⟩
  · rintro ⟨⟨rest, some, rfl, -⟩, least⟩
    exact ⟨some, by rwa [natAbs_signed] at least, rfl⟩

/-- A number at the start of a text that is too large is not read, and neither is another one. -/
theorem leadingInteger_eq_none {raw rest : Text} {i : Int} (h : NumberAtStart raw i rest)
    (large : greatestMagnitude < i.natAbs) : leadingInteger raw = none := by
  refine Option.eq_none_iff_forall_ne_some.2 fun j read => ?_
  obtain ⟨⟨rest', number⟩, least⟩ := leadingInteger_eq_some_iff_numberAtStart.1 read
  rw [(number.unique h).1] at least
  exact absurd large (Nat.not_lt.2 least)

/-! ## Words of 64 bits -/

/-- A whole number with a sign that has room in 64 bits. -/
def FitsWord (i : Int) : Prop := -2 ^ 63 ≤ i ∧ i ≤ 2 ^ 63 - 1

/-- The least of these numbers. -/
def leastWord : Int := -2 ^ 63

/-- A whole number as it is written: digits without a zero in front, and a minus sign in front of
what is less than zero. -/
def numeral (i : Int) : Text := (if i < 0 then ['-'] else []) ++ digits i.natAbs

/-- From a text every number is read that stands at its start and has room in 64 bits, and no other
one. -/
def ReadsWords (raw : Text) : Prop :=
  ∀ i, leadingInteger raw = some i ↔ (∃ rest, NumberAtStart raw i rest) ∧ FitsWord i

/-- The magnitudes of 63 bits are those of the numbers of 64 bits with a sign, but the least one. -/
theorem natAbs_le_greatestMagnitude_iff {i : Int} :
    i.natAbs ≤ greatestMagnitude ↔ FitsWord i ∧ i ≠ leastWord := by
  unfold FitsWord leastWord greatestMagnitude
  omega

theorem fitsWord_leastWord : FitsWord leastWord := by
  unfold FitsWord leastWord
  omega

/-- A numeral stands at the start of a text when no digit follows it. -/
theorem numberAtStart_numeral (i : Int) {rest : Text} (h : EndsRun isDigit rest) :
    NumberAtStart (numeral i ++ rest) i rest := by
  have none : ∀ c ∈ ([] : Text), Text.isBlank c = true := by simp
  have sign : Sign (i < 0) (if i < 0 then ['-'] else []) := by
    split_ifs with negative
    · rw [decide_eq_true negative]
      exact .minus
    · rw [decide_eq_false negative]
      exact .none
  have number := NumberAtStart.intro none sign (isDigits_digits i.natAbs) h
  rw [digitsValue_digits, signed_natAbs] at number
  rwa [numeral, List.append_assoc]

/-- **Which texts are read as numbers.** A text is read as a number exactly when the number stands
at its start, has room in 64 bits with a sign, and is not the least one that has; from all others
nothing is read. So every number that has room is read from its numeral, whatever follows that is
not a digit, with this one exception, and a text fails to be read as it should exactly when it
begins with the least number. -/
theorem leadingInteger_eq_some_iff_fitsWord (raw : Text) :
    (∀ i, leadingInteger raw = some i ↔
      (∃ rest, NumberAtStart raw i rest) ∧ FitsWord i ∧ i ≠ leastWord) ∧
      (∀ i rest, FitsWord i → EndsRun isDigit rest →
        leadingInteger (numeral i ++ rest) = if i = leastWord then none else some i) ∧
      (ReadsWords raw ↔ ¬ ∃ rest, NumberAtStart raw leastWord rest) := by
  refine ⟨fun i => ?_, fun i rest fits h => ?_, fun reads least => ?_, fun least i => ?_⟩
  · rw [leadingInteger_eq_some_iff_numberAtStart, natAbs_le_greatestMagnitude_iff]
  · have number := numberAtStart_numeral i h
    split_ifs with hi
    · subst hi
      exact leadingInteger_eq_none number (by decide)
    · exact leadingInteger_eq_some_iff_numberAtStart.2
        ⟨⟨rest, number⟩, natAbs_le_greatestMagnitude_iff.2 ⟨fits, hi⟩⟩
  · have read := (reads leastWord).2 ⟨least, fitsWord_leastWord⟩
    have small := (leadingInteger_eq_some_iff_numberAtStart.1 read).2
    exact absurd rfl (natAbs_le_greatestMagnitude_iff.1 small).2
  · rw [leadingInteger_eq_some_iff_numberAtStart, natAbs_le_greatestMagnitude_iff]
    constructor
    · rintro ⟨number, fits, -⟩
      exact ⟨number, fits⟩
    · rintro ⟨number, fits⟩
      refine ⟨number, fits, ?_⟩
      rintro rfl
      exact least number

/-- The least number of 64 bits is not read. -/
theorem not_readsWords_least : ¬ ReadsWords "-9223372036854775808".toList := by
  intro h
  have number : NumberAtStart "-9223372036854775808".toList leastWord [] :=
    numberAtStart_numeral leastWord (endsRun_nil isDigit)
  have refused : leadingInteger "-9223372036854775808".toList = none := by decide +kernel
  have read := (h leastWord).2 ⟨⟨[], number⟩, fitsWord_leastWord⟩
  rw [refused] at read
  cases read

example : leadingInteger " \u3000-0009223372036854775807.5".toList =
    some (-9223372036854775807) := by decide +kernel

end DrillPost.Excellon
