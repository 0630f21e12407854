import DrillPost.Proofs.Json.Written

/-!
# Written documents are read

A text that is written as a value is read as this value, whatever stands behind it, as long as that
does not go on with a number. Strings are read back with all their characters, and an object that
stands on a line for each member is read as the object of these members, in their order.

* `string_quoted`: a string is read back;
* `Writes`: a text writes a value (`writes_number`, `writes_digits`, `writes_boolean`);
* `Member`, `writes_prettyObject`: objects (`writes_members`: also those without members);
* `parse_of_writes`: the value of a whole text.
-/

namespace DrillPost.Json

open Number

/-! ## Strings -/

theorem hexValue_hexDigit {n : Nat} (h : n < 16) : hexValue (hexDigit n) = some n := by
  interval_cases n <;> rfl

/-- A character stands in a string behind a backslash, or as its number, or for itself. -/
theorem escape_cases (c : Char) :
    (∃ e, escape c = ['\\', e] ∧ e ≠ 'u' ∧ shortEscape e = some c) ∨
      (c.toNat < 0x20 ∧
        escape c = ['\\', 'u', '0', '0', hexDigit (c.toNat / 16), hexDigit (c.toNat % 16)]) ∨
      (c ≠ '"' ∧ c ≠ '\\' ∧ 0x20 ≤ c.toNat ∧ escape c = [c]) := by
  unfold escape
  split_ifs with quote backslash lineFeed carriage tab back feed control
  iterate 7
    · subst_vars
      exact .inl ⟨_, rfl, by decide, rfl⟩
  · exact .inr (.inl ⟨control, rfl⟩)
  · exact .inr (.inr ⟨quote, backslash, Nat.le_of_not_lt control, rfl⟩)

/-- The parts of a string that stand for a character: the character, or its number if that is
below the blank. -/
def Unit16.StandsFor (c : Char) (u : Unit16) : Prop :=
  u = .char c ∨ u = .code c.toNat ∧ c.toNat < 0x20

theorem exists_stringParts_escape (c : Char) :
    ∃ u : Unit16, u.StandsFor c ∧ ∀ r, stringParts (escape c ++ r) =
      (stringParts r).map fun (us, rest) => (u :: us, rest) := by
  rcases escape_cases c with ⟨e, he, letter, short⟩ | ⟨control, he⟩ | ⟨quote, backslash, low, he⟩
  · refine ⟨.char c, .inl rfl, fun r => ?_⟩
    rw [he, List.cons_append, List.cons_append, List.nil_append, stringParts]
    · rw [short, Option.bind_some]
    · rintro a b c d r' h -
      exact letter h
  · refine ⟨.code c.toNat, .inr ⟨rfl, control⟩, fun r => ?_⟩
    have number : hex4 '0' '0' (hexDigit (c.toNat / 16)) (hexDigit (c.toNat % 16)) =
        some c.toNat := by
      have value : c.toNat / 16 * 16 + c.toNat % 16 = c.toNat := by omega
      rw [hex4, hexValue_hexDigit (by omega), hexValue_hexDigit (by omega)]
      simp [show hexValue '0' = some 0 from rfl, value]
    rw [he]
    simp only [List.cons_append, List.nil_append, stringParts, number, Option.bind_some]
  · refine ⟨.char c, .inl rfl, fun r => ?_⟩
    have control : ¬ c.toNat < 0x20 := Nat.not_lt.2 low
    rw [he, List.cons_append, List.nil_append, stringParts]
    · simp [backslash, control]
    all_goals simp_all

theorem decodeParts_cons {c : Char} {u : Unit16} (h : u.StandsFor c) (us : List Unit16) :
    decodeParts (u :: us) = (decodeParts us).map (c :: ·) := by
  rcases h with rfl | ⟨rfl, control⟩
  · rfl
  · have high : isHigh c.toNat = false := by
      simp only [isHigh, Bool.and_eq_false_iff, decide_eq_false_iff_not]
      omega
    have low : isLow c.toNat = false := by
      simp only [isLow, Bool.and_eq_false_iff, decide_eq_false_iff_not]
      omega
    cases us with
    | nil => simp [decodeParts, high, low]
    | cons v us => cases v <;> simp [decodeParts, high, low]

theorem exists_stringParts_flatMap (t r : Text) :
    ∃ us, stringParts (t.flatMap escape ++ '"' :: r) = some (us, r) ∧
      decodeParts us = some t := by
  induction t with
  | nil => exact ⟨[], by rw [List.flatMap_nil, List.nil_append, stringParts], rfl⟩
  | cons c t ih =>
    obtain ⟨us, hus, decoded⟩ := ih
    obtain ⟨u, stands, hu⟩ := exists_stringParts_escape c
    refine ⟨u :: us, ?_, ?_⟩
    · rw [List.flatMap_cons, List.append_assoc, hu, hus, Option.map_some]
    · rw [decodeParts_cons stands, decoded, Option.map_some]

/-- **A string is read back** with all its characters. -/
theorem string_quoted (t r : Text) :
    string (t.flatMap escape ++ '"' :: r) = some (some t, r) := by
  obtain ⟨us, hus, decoded⟩ := exists_stringParts_flatMap t r
  simp [string, hus, decoded]

/-! ## Values -/

/-- A text writes a value: it is read as this value, whatever stands behind it that does not go on
with a number. -/
def Writes (t : Text) (v : Value) : Prop :=
  ∀ ⦃fuel : Nat⦄ ⦃r : Text⦄, t.length < fuel → Stops r → value fuel (t ++ r) = some (v, r)

theorem skip_of_head {c : Char} (h : isSpace c = false) (r : Text) : skip (c :: r) = c :: r := by
  simp [skip, h]

theorem skip_replicate (n : Nat) (r : Text) : skip (List.replicate n ' ' ++ r) = skip r := by
  induction n with
  | zero => rfl
  | succ n ih => exact ih

/-- What is read as the digits of a number starts with a digit. -/
theorem head_of_wholeDigits {c : Char} {r : Text} {p : Text × Text}
    (h : wholeDigits (c :: r) = some p) : isDigit c = true := by
  by_contra hc
  have zero : c ≠ '0' := by
    rintro rfl
    exact hc rfl
  simp [wholeDigits, zero, digits1, Decimal.spanDigits, List.span_eq_takeWhile_dropWhile, hc] at h

/-- What is read as a number starts with a digit or a minus. -/
theorem head_of_numeral {t : Text} {p : Numeral × Text} (h : numeral t = some p) :
    ∃ c r, t = c :: r ∧ (c = '-' ∨ isDigit c = true) := by
  cases t with
  | nil => cases h
  | cons c r =>
    refine ⟨c, r, rfl, ?_⟩
    by_cases sign : c = '-'
    · exact .inl sign
    · cases hw : wholeDigits (c :: r) with
      | none => simp [numeral, sign, hw] at h
      | some q => exact .inr (head_of_wholeDigits hw)

theorem value_of_numeral {t r : Text} {n : Numeral} (h : numeral t = some (n, r)) (fuel : Nat) :
    value (fuel + 1) t = some (.number n, r) := by
  obtain ⟨c, s, rfl, hc⟩ := head_of_numeral h
  have other {x : Char} (hx : x ≠ '-' ∧ isDigit x = false) : c ≠ x := by
    rintro rfl
    rcases hc with rfl | digit
    · exact hx.1 rfl
    · simp [hx.2] at digit
  have space : isSpace c = false := by
    simp [isSpace, other (x := ' ') (by decide), other (x := '\t') (by decide),
      other (x := '\n') (by decide), other (x := '\r') (by decide)]
  rw [value, skip_of_head space]
  split
  case h_7 => rw [h, Option.map_some]
  all_goals
    rename_i heq
    exact absurd (List.cons.inj heq).1 (other (by decide))

theorem writes_of_numeral {t : Text} {n : Numeral}
    (h : ∀ r, Stops r → numeral (t ++ r) = some (n, r)) : Writes t (.number n) := by
  intro fuel r hf hr
  obtain ⟨fuel, rfl⟩ := Nat.exists_eq_add_of_lt hf
  exact value_of_numeral (h r hr) _

theorem writes_number {x : Binary64} (hx : x.isFinite = true) :
    ∃ n, Writes (numberStyle.write x) (.number n) ∧ n.toBinary64? = reread x := by
  obtain ⟨n, reading, value⟩ := numeral_write hx
  exact ⟨n, writes_of_numeral reading, value⟩

theorem writes_text {n : Numeral} (h : n.Proper) : Writes n.text (.number n) :=
  writes_of_numeral fun _ => numeral_text h

theorem writes_digits (n : Nat) : Writes (digits n) (.number (naturalOf n)) :=
  text_naturalOf n ▸ writes_text (proper_naturalOf n)

theorem writes_boolean (b : Bool) : Writes (boolean b) (.boolean b) := by
  rintro fuel r hf -
  obtain ⟨fuel, rfl⟩ := Nat.exists_eq_add_of_lt hf
  cases b <;> simp [boolean, value, skip, isSpace]

theorem writes_null : Writes "null".toList .null := by
  rintro fuel r hf -
  obtain ⟨fuel, rfl⟩ := Nat.exists_eq_add_of_lt hf
  simp [value, skip, isSpace]

/-! ## Objects -/

/-- A member of an object, with the text that writes its value. -/
structure Member where
  key : String
  text : Text
  value : Value
  writes : Writes text value

namespace Member

/-- The line of a member. -/
def line (depth : Nat) (m : Member) : Text :=
  List.replicate (2 * (depth + 1)) ' ' ++ quoted m.key.toList ++ ':' :: ' ' :: m.text

/-- The key and the value. -/
def entry (m : Member) : Option Text × Value := (some m.key.toList, m.value)

end Member

theorem skip_blank (r : Text) : skip (' ' :: r) = skip r := rfl

/-- A value may have a blank in front. -/
theorem value_blank {t : Text} {v : Value} (h : Writes t v) {fuel : Nat} {r : Text}
    (hf : t.length < fuel) (hr : Stops r) : value fuel (' ' :: (t ++ r)) = some (v, r) := by
  rw [← h hf hr]
  obtain ⟨fuel, rfl⟩ := Nat.exists_eq_add_of_lt hf
  rw [value, value, skip_blank]

theorem skip_lineFeed (r : Text) : skip ('\n' :: r) = skip r := rfl

theorem members_lineFeed (fuel : Nat) (r : Text) : members fuel ('\n' :: r) = members fuel r := by
  cases fuel <;> rfl

theorem members_skip (fuel : Nat) (r : Text) : members fuel (skip r) = members fuel r := by
  have twice : skip (skip r) = skip r := List.dropWhile_idempotent isSpace r
  cases fuel with
  | zero => rfl
  | succ fuel => rw [members, members, twice]

/-- The line of a member is read, and then what stands behind it. -/
theorem members_line {depth fuel : Nat} {m : Member} {r : Text} (hf : m.text.length < fuel)
    (hr : Stops r) :
    members (fuel + 1) (m.line depth ++ r) =
      match skip r with
      | ',' :: r => (members fuel r).map fun (ms, rest) => (m.entry :: ms, rest)
      | '}' :: rest => some ([m.entry], rest)
      | _ => none := by
  have line : m.line depth ++ r =
      List.replicate (2 * (depth + 1)) ' ' ++
        '"' :: (m.key.toList.flatMap escape ++ '"' :: ':' :: ' ' :: (m.text ++ r)) := by
    simp [Member.line, quoted]
  rw [line, members, skip_replicate, skip_of_head (by decide)]
  simp only [string_quoted, Option.bind_some]
  rw [skip_of_head (by decide)]
  simp only [value_blank m.writes hf hr, Option.bind_some]
  rfl

theorem Member.length_text_lt (depth : Nat) (m : Member) :
    m.text.length < (m.line depth).length := by
  simp only [line, List.length_append, List.length_cons]
  omega

/-- The lines of members, with a comma at the end of all but the last. -/
def memberLines (depth : Nat) (ms : List Member) : Text :=
  joined [',', '\n'] (ms.map (·.line depth))

theorem memberLines_singleton (depth : Nat) (m : Member) :
    memberLines depth [m] = m.line depth := by
  simp [memberLines, joined]

theorem memberLines_cons_cons (depth : Nat) (m m' : Member) (ms : List Member) :
    memberLines depth (m :: m' :: ms) =
      m.line depth ++ ',' :: '\n' :: memberLines depth (m' :: ms) := by
  simp [memberLines, joined]

/-- The end of an object, and what stands behind it. -/
def closing (depth : Nat) (r : Text) : Text :=
  '\n' :: (List.replicate (2 * depth) ' ' ++ '}' :: r)

theorem stops_closing (depth : Nat) (r : Text) : Stops (closing depth r) := rfl

theorem skip_closing (depth : Nat) (r : Text) : skip (closing depth r) = '}' :: r :=
  (skip_replicate ..).trans (skip_of_head (by decide) r)

/-- The lines of members are read up to the end of their object. -/
theorem members_memberLines {depth fuel : Nat} (m : Member) (ms : List Member) (r : Text)
    (hf : (memberLines depth (m :: ms)).length ≤ fuel) :
    members (fuel + 1) (memberLines depth (m :: ms) ++ closing depth r) =
      some ((m :: ms).map (·.entry), r) := by
  induction ms generalizing m fuel with
  | nil =>
    rw [memberLines_singleton] at hf ⊢
    rw [members_line ((m.length_text_lt depth).trans_le hf) (stops_closing depth r), skip_closing]
    rfl
  | cons m' ms ih =>
    rw [memberLines_cons_cons] at hf ⊢
    rw [List.length_append, List.length_cons, List.length_cons] at hf
    have text := m.length_text_lt depth
    cases fuel with
    | zero => omega
    | succ fuel =>
      have rest := ih m' (by omega : (memberLines depth (m' :: ms)).length ≤ fuel)
      have next : Stops (',' :: '\n' :: (memberLines depth (m' :: ms) ++ closing depth r)) := rfl
      simp only [List.append_assoc, List.cons_append]
      rw [members_line (by omega) next, skip_of_head (by decide)]
      simp only [members_lineFeed, rest, Option.map_some]
      rfl

/-- **An object with a line for each member** is read as these members. -/
theorem writes_prettyObject (depth : Nat) (m : Member) (ms : List Member) :
    Writes (prettyObject depth ((m :: ms).map fun m => (m.key, m.text)))
      (.object ((m :: ms).map (·.entry))) := by
  rintro fuel r hf -
  have text (r : Text) : prettyObject depth ((m :: ms).map fun m => (m.key, m.text)) ++ r =
      '{' :: '\n' :: (memberLines depth (m :: ms) ++ closing depth r) := by
    simp [prettyObject, memberLines, closing, Member.line, Function.comp_def]
  rw [← List.append_nil (prettyObject depth _), text] at hf
  simp only [List.length_cons, List.length_append] at hf
  obtain ⟨fuel, rfl⟩ : ∃ k, fuel = k + 2 := ⟨fuel - 2, by omega⟩
  have reading := members_memberLines m ms r
    (by omega : (memberLines depth (m :: ms)).length ≤ fuel)
  rw [text, value, skip_of_head (by decide)]
  simp only [skip_lineFeed]
  generalize memberLines depth (m :: ms) ++ closing depth r = lines at reading ⊢
  split
  · rename_i close
    rw [members, close] at reading
    cases reading
  · rw [members_skip, reading]
    rfl

theorem writes_emptyObject (depth : Nat) : Writes (prettyObject depth []) (.object []) := by
  rintro fuel r hf -
  obtain ⟨fuel, rfl⟩ := Nat.exists_eq_add_of_lt hf
  have text : prettyObject depth [] ++ r = '{' :: '\n' :: closing depth r := by
    simp [prettyObject, joined, closing]
  rw [text, value, skip_of_head (by decide)]
  simp only [skip_lineFeed, skip_closing]

theorem writes_members (depth : Nat) (ms : List Member) :
    Writes (prettyObject depth (ms.map fun m => (m.key, m.text))) (.object (ms.map (·.entry))) := by
  cases ms with
  | nil => exact writes_emptyObject depth
  | cons m ms => exact writes_prettyObject depth m ms

/-- A member whose value is an object itself; `depth` objects lie around that. -/
def Member.ofObject (depth : Nat) (key : String) (ms : List Member) : Member where
  key := key
  text := prettyObject depth (ms.map fun m => (m.key, m.text))
  value := .object (ms.map (·.entry))
  writes := writes_members depth ms

/-- **The value of a whole text** that writes one. -/
theorem parse_of_writes {t : Text} {v : Value} (h : Writes t v) : parse t = some v := by
  have reading := h (Nat.lt_succ_self t.length) (r := []) rfl
  rw [List.append_nil] at reading
  rw [parse, reading]
  rfl

end DrillPost.Json
