import DrillPost.Text.Pieces

/-!
# What lies between separators

A sequence that was put together from parts without a separator is taken apart into these parts
again, and no line of a text holds a line feed.

* `concat_eq_append_cons_iff`: where a list that ends with an element can be cut;
* `splitOn_append_cons`, `pieces_append_cons`: the part and the piece at the first separator;
* `separated_induction`: induction from separator to separator;
* `mem_of_mem_trim`, `lineFeed_mem_upper`: the characters of a trimmed text, and the line feeds of
  one in upper case;
* `Text.lines_append_cons`, `Text.notMem_of_mem_lines`: the lines of a text.
-/

namespace DrillPost

/-- A list that ends with an element, cut in front of an element: this is the last one, or the last
one is left behind the cut. -/
theorem concat_eq_append_cons_iff {α : Type} {xs front rest : List α} {x y : α} :
    xs ++ [x] = front ++ y :: rest ↔
      xs = front ∧ x = y ∧ rest = [] ∨ ∃ init, rest = init ++ [x] ∧ xs = front ++ y :: init := by
  constructor
  · intro h
    rcases List.eq_nil_or_concat rest with rfl | ⟨init, z, rfl⟩
    · obtain ⟨hf, hx⟩ := List.append_inj' h rfl
      exact .inl ⟨hf, by simpa using hx, rfl⟩
    · rw [List.concat_eq_append, ← List.cons_append, ← List.append_assoc] at h
      obtain ⟨hf, hx⟩ := List.append_inj' h rfl
      obtain rfl : x = z := by simpa using hx
      exact .inr ⟨init, List.concat_eq_append, hf⟩
  · rintro (⟨rfl, rfl, rfl⟩ | ⟨init, rfl, rfl⟩) <;> simp

/-! ## Parts and pieces -/

section

variable {α : Type} [BEq α] {sep : α}

theorem splitOn_cons_sep (sep x : α) (xs : List α) (h : (x == sep) = true) :
    splitOn sep (x :: xs) = [] :: splitOn sep xs := by
  simp [splitOn, h]

theorem splitOn_cons_of_cons {sep x : α} {xs p : List α} {ps : List (List α)}
    (h : (x == sep) = false) (hp : splitOn sep xs = p :: ps) :
    splitOn sep (x :: xs) = (x :: p) :: ps := by
  unfold splitOn at hp ⊢
  simp [h, hp]

theorem mem_of_mem_dropFinal {x y : α} {xs : List α} (h : y ∈ dropFinal x xs) : y ∈ xs := by
  unfold dropFinal at h
  split at h
  · exact List.dropLast_subset _ h
  · exact h

variable [LawfulBEq α]

/-- A sequence without a separator is its own only part. -/
theorem splitOn_of_notMem {xs : List α} (h : sep ∉ xs) : splitOn sep xs = [xs] := by
  induction xs with
  | nil => rfl
  | cons x xs ih =>
    simp only [List.mem_cons, not_or] at h
    exact splitOn_cons_of_cons (by simpa using Ne.symm h.1) (ih h.2)

/-- The part in front of the first separator. -/
theorem splitOn_append_cons {p : List α} (h : sep ∉ p) (rest : List α) :
    splitOn sep (p ++ sep :: rest) = p :: splitOn sep rest := by
  induction p with
  | nil => exact splitOn_cons_sep sep sep rest (beq_self_eq_true sep)
  | cons x p ih =>
    simp only [List.mem_cons, not_or] at h
    rw [List.cons_append]
    exact splitOn_cons_of_cons (by simpa using Ne.symm h.1) (ih h.2)

/-- A sequence without a separator is its own only piece. -/
theorem pieces_of_notMem {xs : List α} (h : sep ∉ xs) (hne : xs ≠ []) : pieces sep xs = [xs] := by
  induction xs with
  | nil => exact absurd rfl hne
  | cons x xs ih =>
    simp only [List.mem_cons, not_or] at h
    have hx : (x == sep) = false := by simpa using Ne.symm h.1
    cases xs with
    | nil => exact pieces_cons_of_nil _ _ _ hx rfl
    | cons y ys => exact pieces_cons_of_cons _ _ _ _ _ hx (ih h.2 (List.cons_ne_nil y ys))

/-- The piece up to the first separator. -/
theorem pieces_append_cons {p : List α} (h : sep ∉ p) (rest : List α) :
    pieces sep (p ++ sep :: rest) = (p ++ [sep]) :: pieces sep rest := by
  induction p with
  | nil => exact pieces_cons_sep sep sep rest (beq_self_eq_true sep)
  | cons x p ih =>
    simp only [List.mem_cons, not_or] at h
    rw [List.cons_append]
    exact pieces_cons_of_cons _ _ _ _ _ (by simpa using Ne.symm h.1) (ih h.2)

/-- Induction over a sequence from separator to separator. -/
@[elab_as_elim]
theorem separated_induction (sep : α) {motive : List α → Prop}
    (last : ∀ p, sep ∉ p → motive p)
    (next : ∀ p rest, sep ∉ p → motive rest → motive (p ++ sep :: rest)) (xs : List α) :
    motive xs := by
  induction hn : xs.length using Nat.strongRecOn generalizing xs with
  | ind n ih =>
    by_cases h : sep ∈ xs
    · obtain ⟨p, rest, rfl, hp⟩ := List.eq_append_cons_of_mem h
      refine next p rest hp (ih rest.length ?_ rest rfl)
      simp only [List.length_append, List.length_cons] at hn
      omega
    · exact last xs h

/-- The parts on the two sides of a separator. -/
theorem splitOn_append_sep (xs ys : List α) :
    splitOn sep (xs ++ sep :: ys) = splitOn sep xs ++ splitOn sep ys := by
  induction xs using separated_induction sep with
  | last p h => rw [splitOn_append_cons h, splitOn_of_notMem h, List.singleton_append]
  | next p rest h ih =>
    rw [List.append_assoc, List.cons_append, splitOn_append_cons h, splitOn_append_cons h, ih,
      List.cons_append]

end

namespace Text

/-! ## Trimming and upper case -/

theorem mem_of_mem_trimLeft {c : Char} {t : Text} (h : c ∈ trimLeft t) : c ∈ t :=
  (List.dropWhile_sublist _).subset h

theorem mem_of_mem_trim {c : Char} {t : Text} (h : c ∈ trim t) : c ∈ t := by
  have h' : c ∈ trimLeft (trimLeft t).reverse := List.mem_reverse.1 h
  exact mem_of_mem_trimLeft (List.mem_reverse.1 (mem_of_mem_trimLeft h'))

theorem trimRight_concat {c : Char} (h : isBlank c = true) (t : Text) :
    trimRight (t ++ [c]) = trimRight t := by
  simp [trimRight, trimLeft, h]

/-- A blank at the end makes no difference to a trimmed text. -/
theorem trim_concat {c : Char} (h : isBlank c = true) (t : Text) : trim (t ++ [c]) = trim t := by
  unfold trim trimLeft
  rw [List.dropWhile_append]
  split
  · rename_i blank
    rw [List.isEmpty_iff.1 blank]
    simp [h]
  · exact trimRight_concat h _

theorem trim_dropFinal {c : Char} (h : isBlank c = true) (t : Text) :
    trim (dropFinal c t) = trim t := by
  rcases List.eq_nil_or_concat t with rfl | ⟨t, x, rfl⟩
  · rfl
  · rw [List.concat_eq_append]
    by_cases hx : x = c
    · rw [hx, dropFinal_concat_self, trim_concat h]
    · rw [dropFinal_concat_of_ne t (beq_eq_false_iff_ne.2 hx)]

theorem toUpper_eq_lineFeed {c : Char} (h : c.toUpper = '\n') : c = '\n' := by
  unfold Char.toUpper at h
  split at h
  · -- a small letter becomes a capital one, which is no line feed
    rename_i hc
    have hv := congrArg Char.val h
    have low : (97 : UInt32) ≤ c.val := hc.1
    have high : c.val ≤ 122 := hc.2
    change c.val + (65 - 97) = 10 at hv
    simp only [UInt32.le_iff_toNat_le, ← UInt32.toNat_inj, UInt32.toNat_add] at low high hv
    simp at low high hv
    omega
  · exact h

/-- Upper case makes no line feed. -/
theorem lineFeed_mem_upper {t : Text} (h : '\n' ∈ upper t) : '\n' ∈ t := by
  obtain ⟨c, hc, hu⟩ := List.mem_map.1 h
  exact toUpper_eq_lineFeed hu ▸ hc

/-! ## Lines -/

/-- A text without a line feed is its own only line. -/
theorem lines_of_notMem {t : Text} (h : '\n' ∉ t) (hne : t ≠ []) : lines t = [t] := by
  have last : t.getLast? ≠ some '\n' := fun hl => h (List.mem_of_getLast? hl)
  simp [lines, pieces_of_notMem h hne, withoutLineEnd, last]

/-- The line in front of the first line feed, without a carriage return at its end. -/
theorem lines_append_cons {t : Text} (h : '\n' ∉ t) (rest : Text) :
    lines (t ++ '\n' :: rest) = dropFinal '\r' t :: lines rest := by
  simp [lines, pieces_append_cons h, withoutLineEnd]

/-- A line end makes no difference to a trimmed piece. -/
theorem trim_withoutLineEnd (piece : Text) : trim (withoutLineEnd piece) = trim piece := by
  rcases List.eq_nil_or_concat piece with rfl | ⟨t, c, rfl⟩
  · rfl
  · rw [List.concat_eq_append, withoutLineEnd, List.getLast?_concat, List.dropLast_concat]
    by_cases hc : c = '\n'
    · subst hc
      rw [if_pos rfl, trim_dropFinal (by decide), trim_concat (by decide)]
    · rw [if_neg (by simpa using hc)]

/-- A line holds no line feed. -/
theorem notMem_of_mem_lines {document line : Text} (h : line ∈ lines document) : '\n' ∉ line := by
  induction document using separated_induction '\n' with
  | last t ht =>
    by_cases hne : t = []
    · subst hne
      cases h
    · rw [lines_of_notMem ht hne, List.mem_singleton] at h
      exact h ▸ ht
  | next t rest ht ih =>
    rw [lines_append_cons ht, List.mem_cons] at h
    rcases h with rfl | h
    · exact fun hm => ht (mem_of_mem_dropFinal hm)
    · exact ih h

end Text

end DrillPost
