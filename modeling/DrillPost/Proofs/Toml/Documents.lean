import DrillPost.Proofs.Toml.Values

/-!
# Written documents are read

A document is written line by line: a header for each section, a line for each setting, and empty
lines between them. It is read as these statements, in their order.

* `Spells`, `BareKey`: how a key is written, and a name that needs no quotes (`key_append`);
* `FillsLine`: a text is a value up to the end of its line (`Writes.fillsLine`);
* `Reads`: a text is read as a row of statements (`parse_of_reads`);
* `Reads.line`, `Reads.header`, `Reads.lineFeed`, `Reads.nil`: one line in front of others.
-/

namespace DrillPost.Toml

open Number

/-! ## Keys -/

/-- A name that is a key without quotes. -/
structure BareKey (name : Text) : Prop where
  ne_nil : name ≠ []
  bare : name.all inBareKey = true

theorem ne_of_inBareKey {c x : Char} (h : inBareKey c = true) (hx : inBareKey x = false) :
    c ≠ x := by
  rintro rfl
  simp [hx] at h

/-- What starts with a name starts with no blank. -/
theorem BareKey.exists_eq_cons {name : Text} (h : BareKey name) :
    ∃ c s, name = c :: s ∧ inBareKey c = true ∧ isSpace c = false := by
  obtain ⟨c, s, rfl⟩ := List.exists_cons_of_ne_nil h.ne_nil
  have bare : inBareKey c = true := List.all_eq_true.1 h.bare c List.mem_cons_self
  refine ⟨c, s, rfl, bare, ?_⟩
  simp [isSpace, ne_of_inBareKey bare (x := ' ') (by decide),
    ne_of_inBareKey bare (x := '\t') (by decide)]

theorem simpleKey_append {name : Text} (h : BareKey name) {c : Char} (hc : inBareKey c = false)
    (r : Text) : simpleKey (name ++ c :: r) = some (name, c :: r) := by
  have bare := List.all_eq_true.1 h.bare
  have taken : (name ++ c :: r).takeWhile inBareKey = name := by
    rw [List.takeWhile_append_of_pos bare, List.takeWhile_cons_of_neg (by simp [hc]),
      List.append_nil]
  have left : (name ++ c :: r).dropWhile inBareKey = c :: r := by
    rw [List.dropWhile_append_of_pos bare, List.dropWhile_cons_of_neg (by simp [hc])]
  obtain ⟨x, s, rfl, first, -⟩ := h.exists_eq_cons
  unfold simpleKey
  split
  · rename_i heq
    exact absurd (List.cons.inj heq).1 (ne_of_inBareKey first (by decide))
  · rename_i heq
    exact absurd (List.cons.inj heq).1 (ne_of_inBareKey first (by decide))
  · dsimp only
    rw [taken, left, if_neg (List.cons_ne_nil x s)]

theorem skip_of_head {c : Char} (h : isSpace c = false) (r : Text) : skip (c :: r) = c :: r := by
  simp [skip, h]

theorem skip_blank (r : Text) : skip (' ' :: r) = skip r := rfl

/-- The characters that a key may start with. -/
def startsKey (c : Char) : Bool := c == '"' || c == '\'' || inBareKey c

theorem ne_of_startsKey {c x : Char} (h : startsKey c = true) (hx : startsKey x = false) :
    c ≠ x := by
  rintro rfl
  simp [hx] at h

/-- What is read as a part of a key starts as keys do. -/
theorem head_of_simpleKey {t : Text} {p : Text × Text} (h : simpleKey t = some p) :
    ∃ c s, t = c :: s ∧ startsKey c = true := by
  unfold simpleKey at h
  split at h
  · exact ⟨_, _, rfl, rfl⟩
  · exact ⟨_, _, rfl, rfl⟩
  · dsimp only at h
    split_ifs at h with none
    cases t with
    | nil => exact absurd rfl none
    | cons c s =>
      refine ⟨c, s, rfl, ?_⟩
      by_contra bare
      have : inBareKey c = false := by
        simp only [startsKey, Bool.or_eq_true, not_or, Bool.not_eq_true] at bare
        exact bare.2
      exact none (List.takeWhile_cons_of_neg (by simp [this]))

theorem skip_of_simpleKey {t : Text} {p : Text × Text} (h : simpleKey t = some p) :
    skip t = t := by
  obtain ⟨c, s, rfl, start⟩ := head_of_simpleKey h
  refine skip_of_head ?_ s
  simp [isSpace, ne_of_startsKey start (x := ' ') (by decide),
    ne_of_startsKey start (x := '\t') (by decide)]

/-- A part of a key is all of it when no point goes on. -/
theorem key_of_simpleKey {t k rest : Text} (h : simpleKey t = some (k, rest))
    (point : (skip rest).head? ≠ some '.') : key t = some ([], k, skip rest) := by
  have parts (fuel : Nat) : keyParts (fuel + 1) t = some ([k], skip rest) := by
    rw [keyParts, skip_of_simpleKey h, h, Option.bind_some]
    dsimp only
    split
    · rename_i heq
      simp [heq] at point
    · rfl
  rw [key, parts]
  rfl

/-- A name is the only part of a key when neither it nor a point goes on. -/
theorem key_append {name : Text} (h : BareKey name) {c : Char} (hc : inBareKey c = false)
    {r : Text} (point : (skip (c :: r)).head? ≠ some '.') :
    key (name ++ c :: r) = some ([], name, skip (c :: r)) :=
  key_of_simpleKey (simpleKey_append h hc r) point

/-- A name spells a key: in front of a blank it is read as this key. -/
def Spells (name key : Text) : Prop :=
  ∀ r, simpleKey (name ++ ' ' :: r) = some (key, ' ' :: r)

theorem BareKey.spells {name : Text} (h : BareKey name) : Spells name name :=
  fun r => simpleKey_append h (by decide) r

/-! ## Values -/

/-- A text is a value up to the end of its line. -/
structure FillsLine (t : Text) (v : Value) : Prop where
  reading : ∀ ⦃fuel : Nat⦄ (r : Text), t.length < fuel →
    value fuel 0 (t ++ '\n' :: r) = some (v, '\n' :: r)
  start : ∀ r, skip (t ++ '\n' :: r) = t ++ '\n' :: r

theorem Writes.fillsLine {t : Text} {v : Value} (h : Writes t v) : FillsLine t v := by
  obtain ⟨c, s, rfl, space, bracket, brace⟩ := h.head
  refine ⟨fun fuel r hf => ?_, fun r => skip_of_head space _⟩
  obtain ⟨fuel, rfl⟩ := Nat.exists_eq_succ_of_ne_zero (Nat.ne_of_gt (Nat.zero_lt_of_lt hf))
  rw [← h.reading r, List.cons_append, value]
  · rintro r' h
    exact bracket (List.cons.inj h).1
  · rintro r' h
    exact brace (List.cons.inj h).1

/-! ## Statements -/

theorem lineEnd_lineFeed (r : Text) : lineEnd ('\n' :: r) = some r := rfl

theorem assignment_append (name : String) (text r : Text) :
    Toml.assignment name text ++ r = name.toList ++ ' ' :: '=' :: ' ' :: (text ++ '\n' :: r) := by
  simp [Toml.assignment]

/-- A line that gives a value. -/
theorem pair_assignment {name : String} {k text : Text} {v : Value} (hk : Spells name.toList k)
    (hv : FillsLine text v) (r : Text) :
    pair (Toml.assignment name text ++ r) = some (⟨[], k, v⟩, r) := by
  have key := key_of_simpleKey (hk ('=' :: ' ' :: (text ++ '\n' :: r)))
    (by simp [skip_blank, skip_of_head (c := '=') (by decide)])
  have reading : value ((text ++ '\n' :: r).length + 1) 0 (text ++ '\n' :: r) =
      some (v, '\n' :: r) := by
    refine hv.reading r ?_
    rw [List.length_append]
    omega
  rw [skip_blank, skip_of_head (by decide)] at key
  rw [assignment_append, pair, key, Option.bind_some]
  simp only [after, if_true, Option.bind_some, skip_blank, hv.start, reading, lineEnd_lineFeed,
    Option.map_some]

/-- A line that opens a section. -/
theorem header_append {name : Text} (hn : BareKey name) (r : Text) :
    header (name ++ ']' :: '\n' :: r) = some (⟨false, [], name⟩, r) := by
  have key := key_append hn (c := ']') (r := '\n' :: r) (by decide)
    (by simp [skip_of_head (c := ']') (by decide)])
  obtain ⟨c, s, rfl, bare, -⟩ := hn.exists_eq_cons
  rw [skip_of_head (by decide)] at key
  unfold header
  split
  · rename_i heq
    exact absurd (List.cons.inj heq).1 (ne_of_inBareKey bare (by decide))
  · simp only [key, Option.bind_some, after, if_true, lineEnd_lineFeed, Option.map_some]

/-- A text is read as a row of statements. -/
def Reads (t : Text) (ss : List Statement) : Prop :=
  ∀ ⦃fuel : Nat⦄, t.length < fuel → statements fuel t = some ss

namespace Reads

variable {t : Text} {ss : List Statement}

theorem nil : Reads [] [] := by
  intro fuel h
  obtain ⟨fuel, rfl⟩ := Nat.exists_eq_succ_of_ne_zero (Nat.ne_of_gt h)
  rfl

theorem lineFeed (h : Reads t ss) : Reads ('\n' :: t) ss := by
  intro fuel hf
  rw [List.length_cons] at hf
  obtain ⟨fuel, rfl⟩ := Nat.exists_eq_succ_of_ne_zero (Nat.ne_of_gt (Nat.zero_lt_of_lt hf))
  exact h (Nat.succ_lt_succ_iff.1 hf)

theorem line {name : String} {k text : Text} {v : Value} (h : Reads t ss)
    (hk : Spells name.toList k) (hv : FillsLine text v) :
    Reads (Toml.assignment name text ++ t) (.pair ⟨[], k, v⟩ :: ss) := by
  intro fuel hf
  have reading := pair_assignment hk hv t
  have short : t.length < (Toml.assignment name text ++ t).length := by
    simp only [Toml.assignment, List.length_append, List.length_singleton]
    omega
  obtain ⟨fuel, rfl⟩ := Nat.exists_eq_succ_of_ne_zero (Nat.ne_of_gt (Nat.zero_lt_of_lt hf))
  have rest := h (by omega : t.length < fuel)
  have spelled := hk ('=' :: ' ' :: (text ++ '\n' :: t))
  rw [assignment_append] at reading ⊢
  obtain ⟨c, s, hs, start⟩ := head_of_simpleKey spelled
  have skipped := skip_of_simpleKey spelled
  rw [hs] at reading skipped ⊢
  rw [statements, skipped]
  split
  case h_6 => simp only [reading, Option.bind_some, rest, Option.map_some]
  case h_1 heq => cases heq
  all_goals
    rename_i heq
    exact absurd (List.cons.inj heq).1 (ne_of_startsKey start (by decide))

theorem assignment {text : Text} {v : Value} (h : Reads t ss) (name : String)
    (hn : BareKey name.toList) (hv : Writes text v) :
    Reads (Toml.assignment name text ++ t) (.pair ⟨[], name.toList, v⟩ :: ss) :=
  h.line hn.spells hv.fillsLine

theorem header (h : Reads t ss) (name : String) (hn : BareKey name.toList) :
    Reads ('[' :: (name.toList ++ ']' :: '\n' :: t)) (.header ⟨false, [], name.toList⟩ :: ss) := by
  intro fuel hf
  simp only [List.length_cons, List.length_append] at hf
  obtain ⟨fuel, rfl⟩ := Nat.exists_eq_succ_of_ne_zero (Nat.ne_of_gt (Nat.zero_lt_of_lt hf))
  rw [statements, skip_of_head (by decide)]
  simp only [header_append hn, Option.bind_some, h (by omega : t.length < fuel), Option.map_some]

/-- What is read as statements does not start with a byte order mark. -/
theorem dropMark_eq (h : Reads t ss) : dropMark t = t := by
  unfold dropMark
  split
  · have reading := h (Nat.lt_succ_self _)
    simp [statements, skip, isSpace, pair, key, keyParts, simpleKey, inBareKey, isDigit] at reading
  · rfl

end Reads

/-- The entries of a document that is read as statements. -/
theorem parse_of_reads {t : Text} {ss : List Statement} (h : Reads t ss) :
    parse t = assemble ss := by
  rw [parse, h.dropMark_eq, h (Nat.lt_succ_self _), Option.bind_some]

end DrillPost.Toml
