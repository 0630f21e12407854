import DrillPost.Excellon.Field
import DrillPost.Proofs.Text.Runs
import Mathlib

/-!
# Reading a line field by field

The fields of a line can be read one at a time, each from the octet at which the one before it ends.
The reading comes to an end, and then the whole line has been read: nothing is left out, nothing is
read twice, and no character is cut in two.

* `cut_append_cons`, `cut_cases`: where the text of a field ends;
* `Boundary`: the octets at which a character of a text begins, and its end
  (`atOffset_octets`: the field that is read there);
* `Walk`: reading a line field by field (`walk_iff`);
* `Tiles`: fields that make up a text;
* `walk_tiles`: the fields that are read make up the line.
-/

namespace DrillPost.Excellon.Field

/-! ## Where a field ends -/

/-- The text of a field ends in front of the first delimiter, unless this is its first character. -/
theorem cut_append_cons {front : Text} {d : Char} (hne : front ≠ [])
    (hf : ∀ c ∈ front, isDelimiter c = false) (hd : isDelimiter d = true) (rest : Text) :
    cut (front ++ d :: rest) = (front, d :: rest) := by
  obtain ⟨c, front, rfl⟩ := List.exists_cons_of_ne_nil hne
  have inside : ∀ x ∈ c :: front, (!isDelimiter x) = true := by simpa using hf
  have stop : EndsRun (!isDelimiter ·) (d :: rest) := (endsRun_cons ..).2 (by simp [hd])
  have first : ¬ isDelimiter c = true := by simp [hf c List.mem_cons_self]
  rw [List.cons_append, cut, if_neg first, ← List.cons_append,
    takeWhile_append_of_endsRun inside stop, dropWhile_append_of_endsRun inside stop]

/-- How a text is cut: all of it is the text of the field, with a delimiter in front or none at all,
or the text of the field ends in front of a delimiter. -/
theorem cut_cases (t : Text) :
    (cut t = (t, []) ∧ (∃ c ∈ t.head?, isDelimiter c = true)) ∨
      (cut t = (t, []) ∧ ∀ c ∈ t, isDelimiter c = false) ∨
      ∃ front d rest, t = front ++ d :: rest ∧ front ≠ [] ∧ (∀ c ∈ front, isDelimiter c = false) ∧
        isDelimiter d = true ∧ cut t = (front, d :: rest) := by
  cases t with
  | nil => exact .inr (.inl ⟨rfl, by simp⟩)
  | cons c t =>
    cases hc : isDelimiter c with
    | true => exact .inl ⟨by simp [cut, hc], c, by simp, hc⟩
    | false =>
      have plain : ∀ x ∈ (c :: t).takeWhile (!isDelimiter ·), isDelimiter x = false :=
        fun x hx => by simpa using List.mem_takeWhile_imp hx
      have whole := List.takeWhile_append_dropWhile (p := (!isDelimiter ·)) (l := c :: t)
      have stop := endsRun_dropWhile (!isDelimiter ·) (c :: t)
      cases hr : (c :: t).dropWhile (!isDelimiter ·) with
      | nil =>
        rw [hr, List.append_nil] at whole
        refine .inr (.inl ⟨?_, whole ▸ plain⟩)
        simp only [cut, hc, Bool.false_eq_true, if_false, whole, hr]
      | cons d rest =>
        rw [hr] at whole stop
        have some : (c :: t).takeWhile (!isDelimiter ·) ≠ [] := by simp [hc]
        have delimiter : isDelimiter d = true := by simpa using (endsRun_cons ..).1 stop
        exact .inr (.inr ⟨_, d, rest, whole.symm, some, plain, delimiter, by
          rw [← whole, cut_append_cons some plain delimiter, whole]⟩)

/-- What follows a field begins with a delimiter. -/
theorem isDelimiter_of_head_cut (t : Text) : ∀ c ∈ (cut t).2.head?, isDelimiter c = true := by
  rcases cut_cases t with ⟨hc, -⟩ | ⟨hc, -⟩ | ⟨front, d, rest, -, -, -, hd, hc⟩
  · simp [hc]
  · simp [hc]
  · simpa [hc] using hd

/-! ## The fields of a text -/

@[simp] theorem all_nil : all [] = [] := by
  rw [all]
  rfl

theorem all_cons (c : Char) (t : Text) : all (c :: t) = ⟨c, (cut t).1⟩ :: all (cut t).2 := by
  rw [all]
  rfl

/-- Induction over a text from field to field. -/
@[elab_as_elim]
theorem fields_induction {motive : Text → Prop} (nil : motive [])
    (cons : ∀ c t, motive (cut t).2 → motive (c :: t)) (t : Text) : motive t := by
  induction hn : t.length using Nat.strongRecOn generalizing t with
  | ind n ih =>
    cases t with
    | nil => exact nil
    | cons c t =>
      refine cons c t (ih _ ?_ _ rfl)
      have := length_lt_of_scan (rfl : scan (c :: t) = _)
      rwa [hn] at this

/-- Where a text begins with a delimiter, so do all its fields. -/
theorem letter_of_mem_all {t : Text} (ht : ∀ c ∈ t.head?, isDelimiter c = true) :
    ∀ f ∈ all t, isDelimiter f.letter = true := by
  induction t using fields_induction with
  | nil => simp
  | cons c t ih =>
    rw [all_cons, List.forall_mem_cons]
    exact ⟨ht c rfl, ih (isDelimiter_of_head_cut t)⟩

/-- Every field but the first begins with a delimiter. -/
theorem letter_of_mem_tail_all (t : Text) : ∀ f ∈ (all t).tail, isDelimiter f.letter = true := by
  cases t with
  | nil => simp
  | cons c t =>
    rw [all_cons, List.tail_cons]
    exact letter_of_mem_all (isDelimiter_of_head_cut t)

/-- Every field but the last has some text without a delimiter. -/
theorem raw_of_mem_dropLast_all (t : Text) :
    ∀ f ∈ (all t).dropLast, f.raw ≠ [] ∧ ∀ c ∈ f.raw, isDelimiter c = false := by
  induction t using fields_induction with
  | nil => simp
  | cons c t ih =>
    rw [all_cons]
    rcases cut_cases t with ⟨hc, -⟩ | ⟨hc, -⟩ | ⟨front, d, rest, -, some, plain, -, hc⟩
    · simp [hc]
    · simp [hc]
    · rw [hc, all_cons] at ih
      rw [hc, all_cons, List.dropLast_cons_cons, List.forall_mem_cons]
      exact ⟨⟨some, plain⟩, ih⟩

/-- The text of a field has no delimiter, or one at its beginning. -/
theorem raw_of_mem_all (t : Text) :
    ∀ f ∈ all t, (∀ c ∈ f.raw, isDelimiter c = false) ∨
      ∃ c ∈ f.raw.head?, isDelimiter c = true := by
  induction t using fields_induction with
  | nil => simp
  | cons c t ih =>
    rw [all_cons, List.forall_mem_cons]
    refine ⟨?_, ih⟩
    rcases cut_cases t with ⟨hc, delimiter⟩ | ⟨hc, plain⟩ | ⟨front, d, rest, -, -, plain, -, hc⟩
    · exact .inr (by simpa [hc] using delimiter)
    · exact .inl (by simpa [hc] using plain)
    · exact .inl (by simpa [hc] using plain)

/-! ## Octets -/

@[simp] theorem octets_nil : octets [] = 0 := rfl

@[simp] theorem octets_cons (c : Char) (t : Text) : octets (c :: t) = c.utf8Size + octets t := rfl

@[simp] theorem octets_append (t u : Text) : octets (t ++ u) = octets t + octets u := by
  induction t with
  | nil => simp
  | cons c t ih => simp [ih, Nat.add_assoc]

theorem octets_text_pos (f : Field) : 0 < octets f.text := by
  have := f.letter.utf8Size_pos
  rw [text, octets_cons]
  omega

/-- An octet of a text at which a character begins, or the one just behind the text. -/
def Boundary (t : Text) (offset : Nat) : Prop :=
  ∃ before after, t = before ++ after ∧ octets before = offset

theorem dropOctets_octets (before after : Text) :
    dropOctets (octets before) (before ++ after) = some after := by
  induction before with
  | nil => cases after <;> rfl
  | cons c before ih =>
    have positive := c.utf8Size_pos
    obtain ⟨n, hn⟩ : ∃ n, c.utf8Size + octets before = n + 1 :=
      ⟨c.utf8Size + octets before - 1, by omega⟩
    rw [octets_cons, hn, List.cons_append, dropOctets, if_pos (by omega), ← hn,
      Nat.add_sub_cancel_left, ih]

/-- Where a character begins, the field is read that begins with it. -/
theorem atOffset_octets {line before after : Text} (h : Text.normalize line = before ++ after) :
    atOffset line (octets before) = (scan after).map (·.1) := by
  rw [atOffset, h, dropOctets_octets]
  rfl

/-! ## Field by field -/

/-- A reading of a line field by field, from a given octet on: the fields with the octets at which
they begin, each of them read where the one before it ends, and the octet at which there is none. -/
inductive Walk (line : Text) : Nat → List (Nat × Field) → Nat → Prop
  | stop {offset : Nat} (h : atOffset line offset = none) : Walk line offset [] offset
  | next {offset last : Nat} {f : Field} {steps : List (Nat × Field)}
      (h : atOffset line offset = some f) (hs : Walk line (f.endOffset offset) steps last) :
      Walk line offset ((offset, f) :: steps) last

/-- Fields with the octets at which they begin, when the first one begins at a given octet. -/
def placed (offset : Nat) : List Field → List (Nat × Field)
  | [] => []
  | f :: fs => (offset, f) :: placed (f.endOffset offset) fs

@[simp] theorem map_snd_placed (offset : Nat) (fs : List Field) :
    (placed offset fs).map (·.2) = fs := by
  induction fs generalizing offset with
  | nil => rfl
  | cons f fs ih => simp [placed, ih]

/-- **Reading field by field** comes to an end, in one way: the fields of the text from there on are
read, and the end is that of the line. -/
theorem walk_iff {line before after : Text} (h : Text.normalize line = before ++ after)
    {steps : List (Nat × Field)} {last : Nat} :
    Walk line (octets before) steps last ↔
      steps = placed (octets before) (all after) ∧ last = octets (Text.normalize line) := by
  induction after using fields_induction generalizing before steps last with
  | nil =>
    have none : atOffset line (octets before) = none := atOffset_octets h
    rw [h, List.append_nil, all_nil]
    constructor
    · intro walk
      cases walk with
      | stop => exact ⟨rfl, rfl⟩
      | next hf => simp [none] at hf
    · rintro ⟨rfl, rfl⟩
      exact .stop none
  | cons c t ih =>
    have first : atOffset line (octets before) = some ⟨c, (cut t).1⟩ := atOffset_octets h
    have split : Text.normalize line = (before ++ c :: (cut t).1) ++ (cut t).2 := by
      simp [h, cut_append]
    have further : ∀ steps, Walk line (octets before + octets (c :: (cut t).1)) steps last ↔ _ :=
      fun steps => octets_append before _ ▸ ih split
    rw [all_cons]
    constructor
    · intro walk
      cases walk with
      | stop hn => simp [first] at hn
      | next hf hw =>
        obtain rfl := Option.some.inj (first.symm.trans hf)
        obtain ⟨rfl, hl⟩ := (further _).1 hw
        exact ⟨rfl, hl⟩
    · rintro ⟨rfl, hl⟩
      exact .next first ((further _).2 ⟨rfl, hl⟩)

/-! ## What is read -/

/-- Fields that make up a text, each of them given with the octet at which it begins. -/
structure Tiles (t : Text) (steps : List (Nat × Field)) : Prop where
  /-- The octets go up, and the last one is followed by the end of the text. -/
  increasing : (steps.map (·.1) ++ [octets t]).Pairwise (· < ·)
  /-- No character is cut in two. -/
  boundary : ∀ offset ∈ steps.map (·.1) ++ [octets t], Boundary t offset
  /-- Nothing is left out. -/
  lossless : (steps.map (·.2.text)).flatten = t
  /-- Every field but the first begins with a delimiter. -/
  letter : ∀ step ∈ steps.tail, isDelimiter step.2.letter = true
  /-- Every field but the last has some text without a delimiter. -/
  inner : ∀ step ∈ steps.dropLast,
    step.2.raw ≠ [] ∧ ∀ c ∈ step.2.raw, isDelimiter c = false
  /-- The text of the last field has no delimiter, or one at its beginning. -/
  outer : ∀ step ∈ steps.getLast?,
    (∀ c ∈ step.2.raw, isDelimiter c = false) ∨ ∃ c ∈ step.2.raw.head?, isDelimiter c = true

theorem le_of_mem_placed {offset : Nat} {fs : List Field} {step : Nat × Field}
    (h : step ∈ placed offset fs) : offset ≤ step.1 := by
  induction fs generalizing offset with
  | nil => cases h
  | cons f fs ih =>
    rcases List.mem_cons.1 h with rfl | h
    · exact Nat.le_refl _
    · exact (Nat.le_add_right _ _).trans (ih h)

/-- The octets at which fields begin go up. -/
theorem pairwise_placed (offset : Nat) (fs : List Field) :
    ((placed offset fs).map (·.1) ++
      [offset + octets (fs.map text).flatten]).Pairwise (· < ·) := by
  induction fs generalizing offset with
  | nil => simp [placed]
  | cons f fs ih =>
    have positive := f.octets_text_pos
    have later := ih (f.endOffset offset)
    simp only [placed, List.map_cons, List.flatten_cons, octets_append, ← Nat.add_assoc]
    rw [List.cons_append, List.pairwise_cons]
    refine ⟨fun other ho => ?_, later⟩
    rcases List.mem_append.1 ho with ho | ho
    · obtain ⟨step, hs, rfl⟩ := List.mem_map.1 ho
      have := le_of_mem_placed hs
      unfold endOffset at this
      omega
    · rw [List.mem_singleton.1 ho]
      omega

/-- Fields that make up a text begin where characters begin. -/
theorem boundary_of_mem_placed {t before : Text} {fs : List Field}
    (h : t = before ++ (fs.map text).flatten) {step : Nat × Field}
    (hs : step ∈ placed (octets before) fs) : Boundary t step.1 := by
  induction fs generalizing before with
  | nil => cases hs
  | cons f fs ih =>
    rcases List.mem_cons.1 hs with rfl | hs
    · exact ⟨before, _, h, rfl⟩
    · rw [endOffset, ← octets_append] at hs
      exact ih (by simpa using h) hs

/-- **The fields that are read make up the line.** Read one at a time, each from the octet at which
the one before it ends, the fields of a line come to an end at the number of octets of the trimmed
line in upper case, and in no other way. The octets go up and do not cut a character in two; letters
and texts put together are the line; all fields but the first begin with a delimiter; all but the
last have a text, which is without delimiters; and the text of the last one has no delimiter, or
begins with one. -/
theorem walk_tiles (line : Text) :
    (∀ steps last, Walk line 0 steps last ↔
      steps = placed 0 (all (Text.upper (Text.trim line))) ∧
        last = octets (Text.upper (Text.trim line))) ∧
      Tiles (Text.upper (Text.trim line)) (placed 0 (all (Text.upper (Text.trim line)))) := by
  rw [← Text.normalize]
  generalize ht : Text.normalize line = t
  have fields : (placed 0 (all t)).map (·.2) = all t := map_snd_placed 0 (all t)
  have whole : t = [] ++ ((all t).map text).flatten := (flatten_all t).symm
  refine ⟨fun steps last => ?_, ?_, ?_, ?_, ?_, ?_, ?_⟩
  · have walk : Walk line (octets []) steps last ↔ _ := walk_iff (ht.trans (List.nil_append t).symm)
    rwa [ht] at walk
  · have up := pairwise_placed 0 (all t)
    rwa [flatten_all, Nat.zero_add] at up
  · intro offset ho
    rcases List.mem_append.1 ho with ho | ho
    · obtain ⟨step, hs, rfl⟩ := List.mem_map.1 ho
      exact boundary_of_mem_placed whole hs
    · rw [List.mem_singleton.1 ho]
      exact ⟨t, [], (List.append_nil t).symm, rfl⟩
  · have texts : (placed 0 (all t)).map (·.2.text) = (all t).map text := by
      conv_rhs => rw [← fields, List.map_map]
      rfl
    rw [texts, flatten_all]
  · intro step hs
    refine letter_of_mem_tail_all t step.2 ?_
    rw [← fields, ← List.map_tail]
    exact List.mem_map_of_mem hs
  · intro step hs
    refine raw_of_mem_dropLast_all t step.2 ?_
    rw [← fields, ← List.map_dropLast]
    exact List.mem_map_of_mem hs
  · intro step hs
    refine raw_of_mem_all t step.2 ?_
    rw [← fields]
    exact List.mem_map_of_mem (List.mem_of_getLast? hs)

end DrillPost.Excellon.Field
