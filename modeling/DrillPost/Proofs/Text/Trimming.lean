import DrillPost.Proofs.Text.Runs
import DrillPost.Proofs.Text.Separation
import Mathlib

/-!
# Trimmed texts

Blanks around a text make no difference to the trimmed text, and this is trimmed to itself. Upper
case neither makes nor removes a blank, so a text may be trimmed before or after it. Hence the form
in which the fields of a line are read is its own.

* `trim_append_append`: blanks around a text;
* `trim_trim`, `trim_upper`, `upper_upper`: trimming and upper case, twice or in either order;
* `normalize_normalize`: the form in which fields are read.
-/

namespace DrillPost.Text

/-! ## Blanks around a text -/

theorem trimLeft_append {front : Text} (h : ∀ c ∈ front, isBlank c = true) (t : Text) :
    trimLeft (front ++ t) = trimLeft t :=
  List.dropWhile_append_of_pos h

theorem trim_append {back : Text} (h : ∀ c ∈ back, isBlank c = true) (t : Text) :
    trim (t ++ back) = trim t := by
  induction back using List.reverseRecOn with
  | nil => rw [List.append_nil]
  | append_singleton back c ih =>
    rw [← List.append_assoc, trim_concat (h c (by simp))]
    exact ih fun x hx => h x (List.mem_append_left [c] hx)

/-- **Blanks around a text** make no difference to the trimmed text. -/
theorem trim_append_append {front back : Text} (hf : ∀ c ∈ front, isBlank c = true)
    (hb : ∀ c ∈ back, isBlank c = true) (t : Text) : trim (front ++ t ++ back) = trim t := by
  rw [trim_append hb, trim, trimLeft_append hf, trim]

/-- The end of a text is trimmed no further than to a character that is not blank. -/
theorem trimRight_append_cons {c : Char} (h : isBlank c = false) (front rest : Text) :
    trimRight (front ++ c :: rest) = front ++ c :: trimRight rest := by
  have stops : (c :: front.reverse).dropWhile isBlank = c :: front.reverse :=
    EndsRun.dropWhile_eq_self ((endsRun_cons ..).2 h)
  have back : trimLeft (rest.reverse ++ c :: front.reverse) =
      trimLeft rest.reverse ++ c :: front.reverse := by
    rw [trimLeft, trimLeft, List.dropWhile_append, stops]
    split
    case isTrue blank => rw [List.isEmpty_iff.1 blank, List.nil_append]
    case isFalse => rfl
  simp [trimRight, back]

/-! ## Trimmed texts are trimmed to themselves -/

theorem trimRight_prefix (t : Text) : trimRight t <+: t := by
  have suffix : trimLeft t.reverse <:+ t.reverse := List.dropWhile_suffix isBlank
  simpa [trimRight] using List.reverse_prefix.2 suffix

theorem trimRight_trimRight (t : Text) : trimRight (trimRight t) = trimRight t := by
  have twice : trimLeft (trimLeft t.reverse) = trimLeft t.reverse :=
    List.dropWhile_idempotent isBlank t.reverse
  rw [trimRight, trimRight, List.reverse_reverse, twice]

/-- What is left at the beginning of a text when its end is trimmed does not become blank. -/
theorem endsRun_trim (t : Text) : EndsRun isBlank (trim t) := by
  intro c hc
  have first : c ∈ (trimLeft t).head? := by
    obtain ⟨rest, whole⟩ := trimRight_prefix (trimLeft t)
    rw [← whole]
    exact List.mem_head?_append_of_mem_head? hc
  exact endsRun_dropWhile isBlank t c first

theorem trim_trim (t : Text) : trim (trim t) = trim t := by
  have left : trimLeft (trim t) = trim t := (endsRun_trim t).dropWhile_eq_self
  rw [trim, left, trim, trimRight_trimRight]

/-! ## Upper case -/

/-- Upper case neither makes nor removes a blank: no letter is blank. -/
theorem isBlank_toUpper (c : Char) : isBlank c.toUpper = isBlank c := by
  by_cases h : c.isLower = true
  · have small : 97 ≤ c.toNat ∧ c.toNat ≤ 122 := by
      simpa [Char.isLower, UInt32.le_iff_toNat_le] using h
    have upper : c.toUpper.toNat = c.toNat - 32 := by
      rw [Char.toUpper_eq_of_isLower h, Char.toNat_ofNat, if_pos (.inl (by omega))]
    simp only [isBlank, upper]
    grind
  · rw [Char.toUpper_eq_of_not_isLower h]

theorem isBlank_toLower (c : Char) : isBlank c.toLower = isBlank c := by
  by_cases h : c.isUpper = true
  · have small : 65 ≤ c.toNat ∧ c.toNat ≤ 90 := by
      simpa [Char.isUpper, UInt32.le_iff_toNat_le] using h
    have lower : c.toLower.toNat = c.toNat + 32 := by
      rw [Char.toLower_eq_of_isUpper h, Char.toNat_ofNat, if_pos (.inl (by omega))]
    simp only [isBlank, lower]
    grind
  · rw [Char.toLower_eq_of_not_isUpper h]

theorem trimLeft_upper (t : Text) : trimLeft (upper t) = upper (trimLeft t) := by
  have same : isBlank ∘ Char.toUpper = isBlank := funext isBlank_toUpper
  rw [trimLeft, upper, List.dropWhile_map, same]
  rfl

/-- **Trimming and upper case** may be exchanged. -/
theorem trim_upper (t : Text) : trim (upper t) = upper (trim t) := by
  have reverse (u : Text) : (upper u).reverse = upper u.reverse := List.map_reverse.symm
  rw [trim, trimLeft_upper, trimRight, reverse, trimLeft_upper, reverse]
  rfl

theorem upper_upper (t : Text) : upper (upper t) = upper t := by
  rw [upper, upper, List.map_map]
  exact List.map_congr_left fun c _ => Char.toUpper_toUpper_eq_toUpper c

/-- **The form in which fields are read** is its own. -/
theorem normalize_normalize (t : Text) : normalize (normalize t) = normalize t := by
  rw [normalize, normalize, trim_upper, trim_trim, upper_upper]

end DrillPost.Text
