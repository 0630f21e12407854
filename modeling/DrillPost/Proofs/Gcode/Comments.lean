import DrillPost.Proofs.Gcode.Numbering

/-!
# The comments of a program

A controller passes over comments: from an opening parenthesis to the first closing one behind it,
and from a semicolon outside parentheses to the end of the line. A remark is meant to be nothing but
comments. The remarks in parentheses quote a text as it is, so a closing parenthesis in this text
ends the comment, and what follows it is left for the controller, unless it is a comment again.

* `uncommented`: what is left of a line;
* `Enclosed`: the texts that can be quoted in parentheses (`blank_uncommented_iff`);
* `Remark.quotation`: the text that a remark quotes in parentheses
  (`Remark.blank_uncommented_text_iff`);
* `CommentsOnly`: the lines without a number are nothing but comments (`commentsOnly_write_iff`).
-/

namespace DrillPost.Gcode

/-! ## What is left of a line -/

/-- What is left of a line without its comments. The first argument is what has been read of a
parenthesis that is still open; when it is never closed, it is no comment. -/
def uncommentedFrom : Option Text → Text → Text
  | none, [] => []
  | some held, [] => held
  | none, c :: t =>
    if c = '(' then uncommentedFrom (some [c]) t
    else if c = ';' then []
    else c :: uncommentedFrom none t
  | some held, c :: t =>
    if c = ')' then uncommentedFrom none t else uncommentedFrom (some (held ++ [c])) t

/-- What is left of a line without its comments. -/
def uncommented (line : Text) : Text := uncommentedFrom none line

/-- A text of blanks. -/
def Blank (t : Text) : Prop := ∀ c ∈ t, Text.isBlank c = true

-- The instance for lists: the one for all characters would try each of them.
instance (t : Text) : Decidable (Blank t) :=
  List.decidableBAll (fun c => Text.isBlank c = true) t

theorem Blank.nil : Blank [] := fun _ h => absurd h List.not_mem_nil

theorem blank_cons {c : Char} {t : Text} :
    Blank (c :: t) ↔ Text.isBlank c = true ∧ Blank t := List.forall_mem_cons

theorem blank_append {t u : Text} : Blank (t ++ u) ↔ Blank t ∧ Blank u := List.forall_mem_append

/-- A blank begins no comment and ends none. -/
theorem ne_of_isBlank {c : Char} (h : Text.isBlank c = true) : c ≠ '(' ∧ c ≠ ')' ∧ c ≠ ';' := by
  refine ⟨?_, ?_, ?_⟩ <;>
  · rintro rfl
    exact absurd h (by decide)

/-- The first closing parenthesis ends the comment. -/
theorem uncommentedFrom_some_append_cons (held : Text) {t : Text} (h : ')' ∉ t) (rest : Text) :
    uncommentedFrom (some held) (t ++ ')' :: rest) = uncommentedFrom none rest := by
  induction t generalizing held with
  | nil => simp [uncommentedFrom]
  | cons c t ih =>
    rw [List.mem_cons, not_or] at h
    rw [List.cons_append, uncommentedFrom, if_neg (Ne.symm h.1)]
    exact ih _ h.2

/-- Blanks are left. -/
theorem uncommentedFrom_none_append {blanks : Text} (h : Blank blanks) (rest : Text) :
    uncommentedFrom none (blanks ++ rest) = blanks ++ uncommentedFrom none rest := by
  induction blanks with
  | nil => rfl
  | cons c t ih =>
    rw [blank_cons] at h
    obtain ⟨opening, -, semicolon⟩ := ne_of_isBlank h.1
    rw [List.cons_append, uncommentedFrom, if_neg opening, if_neg semicolon, ih h.2]
    rfl

/-- Where nothing but blanks is left, there are no others, or a comment follows them. -/
theorem blank_or_exists_of_blank {t : Text} (h : Blank (uncommentedFrom none t)) :
    Blank t ∨ ∃ blanks rest, Blank blanks ∧
      (t = blanks ++ '(' :: rest ∨ t = blanks ++ ';' :: rest) := by
  induction t with
  | nil => exact .inl .nil
  | cons c t ih =>
    by_cases opening : c = '('
    · exact .inr ⟨[], t, .nil, .inl (by rw [opening]; rfl)⟩
    by_cases semicolon : c = ';'
    · exact .inr ⟨[], t, .nil, .inr (by rw [semicolon]; rfl)⟩
    rw [uncommentedFrom, if_neg opening, if_neg semicolon, blank_cons] at h
    rcases ih h.2 with ht | ⟨blanks, rest, hb, ht⟩
    · exact .inl (blank_cons.2 ⟨h.1, ht⟩)
    · exact .inr ⟨c :: blanks, rest, blank_cons.2 ⟨h.1, hb⟩,
        ht.imp (congrArg (c :: ·)) (congrArg (c :: ·))⟩

/-! ## Texts in parentheses -/

/-- A text that leaves nothing but blanks when it is quoted in parentheses: each closing parenthesis
outside a comment is followed by a comment, with nothing but blanks between them. -/
inductive Enclosed : Text → Prop
  /-- The closing parenthesis behind the text is the first one. -/
  | closed {t : Text} (h : ')' ∉ t) : Enclosed t
  /-- Another parenthesis is opened. -/
  | reopened {t blanks rest : Text} (h : ')' ∉ t) (hb : Blank blanks) (hr : Enclosed rest) :
      Enclosed (t ++ ')' :: blanks ++ '(' :: rest)
  /-- The rest of the line is a comment. -/
  | endOfLine {t blanks : Text} (h : ')' ∉ t) (hb : Blank blanks) (rest : Text) :
      Enclosed (t ++ ')' :: blanks ++ ';' :: rest)

theorem Enclosed.blank_uncommentedFrom {t : Text} (h : Enclosed t) (held : Text) :
    Blank (uncommentedFrom (some held) (t ++ [')'])) := by
  induction h generalizing held with
  | closed h =>
    rw [uncommentedFrom_some_append_cons held h]
    exact .nil
  | @reopened t blanks rest h hb _ ih =>
    have split : t ++ ')' :: blanks ++ '(' :: rest ++ [')'] =
        t ++ ')' :: (blanks ++ '(' :: (rest ++ [')'])) := by simp
    rw [split, uncommentedFrom_some_append_cons held h, uncommentedFrom_none_append hb]
    exact blank_append.2 ⟨hb, ih ['(']⟩
  | @endOfLine t blanks h hb rest =>
    have split : t ++ ')' :: blanks ++ ';' :: rest ++ [')'] =
        t ++ ')' :: (blanks ++ ';' :: (rest ++ [')'])) := by simp
    rw [split, uncommentedFrom_some_append_cons held h, uncommentedFrom_none_append hb]
    exact blank_append.2 ⟨hb, .nil⟩

theorem enclosed_of_blank_uncommentedFrom {held t : Text}
    (h : Blank (uncommentedFrom (some held) (t ++ [')']))) : Enclosed t := by
  induction hn : t.length using Nat.strongRecOn generalizing held t with
  | ind n ih =>
    by_cases close : ')' ∉ t
    · exact .closed close
    rw [not_not] at close
    obtain ⟨front, rest, rfl, hf⟩ := List.eq_append_cons_of_mem close
    rw [List.append_assoc, List.cons_append, uncommentedFrom_some_append_cons held hf] at h
    -- What follows the first closing parenthesis are blanks and a comment. It cannot be blanks
    -- alone, for the parenthesis behind the text is there.
    rcases blank_or_exists_of_blank h with blank | ⟨blanks, more, hb, hr | hr⟩
    · exact absurd (blank ')' (by simp)) (by decide)
    · obtain ⟨-, parenthesis, -⟩ | ⟨inner, rfl, rfl⟩ := concat_eq_append_cons_iff.1 hr
      · exact absurd parenthesis (by decide)
      rw [hr, uncommentedFrom_none_append hb, blank_append] at h
      have left : Blank (uncommentedFrom (some ['(']) (inner ++ [')'])) := h.2
      have shorter : inner.length < n := by
        simp only [List.length_append, List.length_cons] at hn
        omega
      simpa using Enclosed.reopened hf hb (ih inner.length shorter left rfl)
    · obtain ⟨-, parenthesis, -⟩ | ⟨inner, -, rfl⟩ := concat_eq_append_cons_iff.1 hr
      · exact absurd parenthesis (by decide)
      simpa using Enclosed.endOfLine hf hb inner

theorem uncommentedFrom_some_append (held : Text) {t : Text} (h : ')' ∉ t) (rest : Text) :
    uncommentedFrom (some held) (t ++ rest) = uncommentedFrom (some (held ++ t)) rest := by
  induction t generalizing held with
  | nil => simp
  | cons c t ih =>
    rw [List.mem_cons, not_or] at h
    rw [List.cons_append, uncommentedFrom, if_neg (Ne.symm h.1), ih _ h.2]
    simp

/-- **A text in parentheses**, with other text around it, is nothing but comments exactly when it is
enclosed. -/
theorem blank_uncommented_iff {opening closing front back : Text} (ho : opening = '(' :: front)
    (hc : closing = back ++ [')']) (h : ')' ∉ front) (t : Text) :
    Blank (uncommented (opening ++ t ++ closing)) ↔ Enclosed (t ++ back) := by
  have opened : uncommented (opening ++ t ++ closing) =
      uncommentedFrom (some opening) (t ++ back ++ [')']) := by
    rw [ho, hc, List.append_assoc, List.append_assoc, List.cons_append]
    exact uncommentedFrom_some_append ['('] h _
  rw [opened]
  exact ⟨enclosed_of_blank_uncommentedFrom, fun he => he.blank_uncommentedFrom _⟩

theorem blank_uncommented_of_closed {t : Text} (u : Text) (h : t = '(' :: u ++ [')'])
    (hu : ')' ∉ u) : Blank (uncommented t) := by
  have opening : ['('] = '(' :: [] := rfl
  have inner : Enclosed (u ++ []) := .closed (by simpa using hu)
  rw [h]
  exact (blank_uncommented_iff opening rfl List.not_mem_nil u).2 inner

/-! ## Remarks -/

/-- The text of a drill file that a remark quotes in parentheses, with the words between its
parts. -/
def Remark.quotation : Remark → Option Text
  | .toolDefinition number diameter => some (number ++ " Diameter: ".toList ++ diameter ++ [' '])
  | .rejected .unknownMachineCode line | .rejected .malformedNumber line => some line
  | _ => none

/-- **A remark is nothing but comments** exactly when the text that it quotes is enclosed. A
quotation behind a semicolon always is. -/
theorem Remark.blank_uncommented_text_iff (r : Remark) :
    Blank (uncommented r.text) ↔ ∀ t ∈ r.quotation, Enclosed t := by
  cases r with
  | rule =>
    refine iff_of_true (blank_uncommented_of_closed
      " --------------------------------------------------------".toList ?_ ?_) ?_
    · decide
    · decide
    · simp [quotation]
  | title =>
    refine iff_of_true (blank_uncommented_of_closed
      " ------------ EXCELLON TO GCODE CONVERTER ---------------".toList ?_ ?_) ?_
    · decide
    · decide
    · simp [quotation]
  | programEnd =>
    refine iff_of_true (blank_uncommented_of_closed
      " --------- PROGRAM END --------- ".toList ?_ ?_) ?_
    · decide
    · decide
    · simp [quotation]
  | drillStart tool =>
    have opening : "( --------- DRILL T".toList = '(' :: " --------- DRILL T".toList := by decide
    have closing : " --------- )".toList = " --------- ".toList ++ [')'] := by decide
    have number : ')' ∉ Number.digits tool.toNat := fun h =>
      absurd (Number.isDigit_of_mem_digits h) (by decide)
    refine iff_of_true ((blank_uncommented_iff opening closing (by decide) _).2 (.closed ?_))
      (by simp [quotation])
    rw [List.mem_append, not_or]
    exact ⟨number, by decide⟩
  | toolDefinition number diameter =>
    have opening : "(T:".toList = '(' :: "T:".toList := by decide
    have closing : " )".toList = [' '] ++ [')'] := by decide
    have parts : (toolDefinition number diameter).text =
        "(T:".toList ++ (number ++ " Diameter: ".toList ++ diameter) ++ " )".toList := by
      change "(T:".toList ++ number ++ " Diameter: ".toList ++ diameter ++ " )".toList = _
      simp only [List.append_assoc]
    rw [parts]
    refine (blank_uncommented_iff opening closing (by decide) _).trans ?_
    simp [quotation]
  | rejected anomaly line =>
    cases anomaly with
    | unrecognizedCode =>
      have behind : uncommented (rejected .unrecognizedCode line).text = [] := rfl
      exact iff_of_true (behind ▸ .nil) (by simp [quotation])
    | unknownMachineCode =>
      have opening : "(-- Unknown MCode: ".toList = '(' :: "-- Unknown MCode: ".toList := by decide
      refine (blank_uncommented_iff opening (List.nil_append _).symm (by decide) line).trans ?_
      simp [quotation]
    | malformedNumber =>
      have opening : "(-- Malformed numeric field: ".toList =
          '(' :: "-- Malformed numeric field: ".toList := by decide
      refine (blank_uncommented_iff opening (List.nil_append _).symm (by decide) line).trans ?_
      simp [quotation]

/-! ## Programs -/

/-- The lines of a text that have no number are nothing but comments. -/
def CommentsOnly (text : Text) : Prop :=
  ∀ line ∈ splitOn '\n' text, isNumbered line = false → Blank (uncommented line)

instance (text : Text) : Decidable (CommentsOnly text) :=
  inferInstanceAs (Decidable (∀ line ∈ splitOn '\n' text, _))

/-- The text that a line quotes in parentheses. -/
def Line.quotation : Line → Option Text
  | .remark r => r.quotation
  | _ => none

theorem Line.blank_uncommented_text_iff (precision : Option Nat) (n : Nat) (l : Line) :
    (isNumbered (l.text precision n) = false → Blank (uncommented (l.text precision n))) ↔
      ∀ t ∈ l.quotation, Enclosed t := by
  cases l with
  | empty => exact iff_of_true (fun _ => .nil) (by simp [quotation])
  | remark r =>
    exact (forall_prop_of_true r.isAside_text.isNumbered_eq_false).trans
      r.blank_uncommented_text_iff
  | block b =>
    have numbered : isNumbered ((block b).text precision n) = true := rfl
    exact iff_of_true (fun h => absurd (numbered.symm.trans h) (by decide)) (by simp [quotation])

/-- **The lines without a number are nothing but comments** exactly when the quotations of the
program are enclosed. -/
theorem commentsOnly_write_iff (precision : Option Nat) (n : Nat) {p : Program}
    (h : ∀ l ∈ p, l.Flat) :
    CommentsOnly (write precision n p) ↔ ∀ l ∈ p, ∀ t ∈ l.quotation, Enclosed t := by
  induction p generalizing n with
  | nil =>
    have last : CommentsOnly [] := fun line hl _ => List.mem_singleton.1 hl ▸ Blank.nil
    exact iff_of_true last (by simp)
  | cons l p ih =>
    have hl : l.Flat := h l List.mem_cons_self
    have rest := ih (n + l.weight) fun m hm => h m (List.mem_cons_of_mem l hm)
    unfold CommentsOnly at rest ⊢
    rw [write_cons, splitOn_append_cons (l.lineFeed_notMem_text precision n hl),
      List.forall_mem_cons, List.forall_mem_cons, rest, l.blank_uncommented_text_iff]

end DrillPost.Gcode
