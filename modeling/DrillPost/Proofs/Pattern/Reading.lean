import DrillPost.Pattern.Reading

/-!
# The reading of patterns comes to an end

Each step of the reader leaves less of the text than it was given, so the bound on the number of its
steps is never reached, and what it answers can be said without that bound.

* `Reaches`, `runSteps_eq_some_iff`: where steps lead that make something smaller;
* `length_read_lt`, `length_afterMember_lt`, `length_openBracket_le`: what the parts of the reader
  leave of a text;
* `bracket_eq_some_iff`, `isPattern_iff`: sets and patterns, without a bound on the steps;
* `isPattern_of_plain`: words without special characters are patterns.
-/

namespace DrillPost.Pattern

/-! ## Steps that make something smaller -/

section

variable {σ ρ : Type} {next : σ → Option (ρ ⊕ σ)}

/-- Steps lead from a state to a result. -/
inductive Reaches (next : σ → Option (ρ ⊕ σ)) : σ → ρ → Prop
  | done {s : σ} {r : ρ} (h : next s = some (.inl r)) : Reaches next s r
  | step {s s' : σ} {r : ρ} (h : next s = some (.inr s')) (rest : Reaches next s' r) :
    Reaches next s r

/-- **Enough steps.** Where each step makes something smaller, as many steps as that is large reach
every result that can be reached. -/
theorem runSteps_eq_some_iff (size : σ → Nat)
    (shrinks : ∀ s s', next s = some (.inr s') → size s' < size s) {fuel : Nat} {s : σ} {r : ρ}
    (enough : size s < fuel) : runSteps next fuel s = some r ↔ Reaches next s r := by
  induction fuel generalizing s with
  | zero => omega
  | succ fuel ih =>
    rw [runSteps]
    constructor
    · intro h
      split at h
      · cases h
      · rename_i stop
        cases h
        exact .done stop
      · rename_i s' go
        have := shrinks s s' go
        exact .step go ((ih (by omega)).1 h)
    · intro h
      cases h with
      | done stop => rw [stop]
      | step go rest =>
        have := shrinks s _ go
        rw [go]
        exact (ih (by omega)).2 rest

end

/-! ## What the parts of the reader leave of a text -/

variable {m : Mode} {t rest : Text}

theorem length_skipRemarks_le (inRemark : Bool) (t : Text) :
    (skipRemarks inRemark t).length ≤ t.length := by
  fun_induction skipRemarks inRemark t <;> simp_all <;> omega

theorem length_skip_le (m : Mode) (t : Text) : (skip m t).length ≤ t.length := by
  unfold skip
  split
  · exact length_skipRemarks_le false t
  · exact Nat.le_refl _

namespace Escape

variable {e : Escape}

theorem length_hexDigits_le {count n v : Nat} (h : hexDigits m count n t = some (v, rest)) :
    rest.length ≤ t.length := by
  induction count generalizing n t with
  | zero =>
    cases h
    exact Nat.le_refl _
  | succ count ih =>
    rw [hexDigits] at h
    split at h
    · cases h
    · rename_i c r skipped
      obtain ⟨digit, -, h⟩ := Option.bind_eq_some_iff.1 h
      have := ih h
      have := length_skip_le m t
      rw [skipped, List.length_cons] at this
      omega

theorem length_numbered_le {count : Nat} (h : numbered m count t = some (e, rest)) :
    rest.length ≤ t.length := by
  obtain ⟨⟨n, r⟩, digits, h⟩ := Option.bind_eq_some_iff.1 h
  obtain ⟨c, -, h⟩ := Option.map_eq_some_iff.1 h
  cases h
  exact Nat.le_trans (length_skip_le m r) (length_hexDigits_le digits)

theorem length_read_lt (h : read m t = some (e, rest)) : rest.length < t.length := by
  unfold read at h
  split at h
  · cases h
  · exact Nat.lt_succ_of_le (length_numbered_le h)
  · exact Nat.lt_succ_of_le (length_numbered_le h)
  · exact Nat.lt_succ_of_le (length_numbered_le h)
  · repeat
      split at h
      · cases h
        exact Nat.lt_succ_self _
    obtain ⟨control, -, h⟩ := Option.map_eq_some_iff.1 h
    cases h
    exact Nat.lt_succ_self _

end Escape

theorem length_member_lt {c : Option Char} (h : member m t = some (c, rest)) :
    rest.length < t.length := by
  unfold member at h
  split at h
  · cases h
  · rename_i r
    split at h
    · rename_i read
      cases h
      exact Nat.lt_succ_of_lt (Escape.length_read_lt read)
    · rename_i read
      split at h
      · cases h
        exact Nat.lt_succ_of_lt (Escape.length_read_lt read)
      · cases h
    · cases h
  · cases h
    exact Nat.lt_succ_self _

theorem length_afterMember_lt (h : afterMember m t = some rest) : rest.length < t.length := by
  obtain ⟨⟨first, r⟩, member, h⟩ := Option.bind_eq_some_iff.1 h
  have shorter := length_member_lt member
  have skipped := length_skip_le m r
  have single (h : (if first.all (mayBeMember m) then some (skip m r) else none) = some rest) :
      rest.length < t.length := by
    split at h
    · cases h
      omega
    · cases h
  dsimp only at h
  split at h
  · cases h
  · rename_i q minus
    rw [minus, List.length_cons] at skipped
    split at h
    · exact single h
    · obtain ⟨⟨last, r'⟩, member', h⟩ := Option.bind_eq_some_iff.1 h
      have := length_member_lt member'
      have := length_skip_le m q
      dsimp only at h
      split at h
      · split at h
        · cases h
          omega
        · cases h
      · cases h
  · exact single h

theorem length_namedClass_lt {s : Operand} (h : namedClass t = some (s, rest)) :
    rest.length < t.length := by
  unfold namedClass at h
  split at h
  · rename_i r
    split at h
    rename_i negated r' sign
    have shorter : r'.length ≤ r.length := by
      split at sign <;> cases sign <;> simp
    dsimp only at h
    split at h
    · rename_i closing
      have dropped := congrArg List.length closing
      simp only [List.length_drop, List.length_cons] at dropped
      split at h
      · cases h
        simp only [List.length_cons]
        omega
      · cases h
    · cases h
  · cases h

theorem length_minusSigns_le (m : Mode) (limit : Nat) (t : Text) :
    (minusSigns m limit t).2.length ≤ t.length := by
  fun_induction minusSigns m limit t with
  | case1 limit r n rest found ih =>
    have := length_skip_le m r
    rw [found] at ih
    exact Nat.le_succ_of_le (Nat.le_trans ih this)
  | case2 => exact Nat.le_refl _

theorem length_firstMembers_le {b : Bracket} {negated : Bool}
    (h : firstMembers m negated t = some (b, rest)) : rest.length ≤ t.length := by
  have signs := length_minusSigns_le m t.length t
  unfold firstMembers at h
  dsimp only at h
  split at h
  · rename_i r found
    rw [found, List.length_cons] at signs
    have := length_skip_le m r
    split at h
    · cases h
      omega
    · cases h
  · rename_i found
    rw [found] at signs
    cases h
    exact signs
  · rename_i found
    rw [found] at signs
    split at h
    · cases h
      exact signs
    · cases h

theorem length_openBracket_le {b : Bracket} (h : openBracket m t = some (b, rest)) :
    rest.length ≤ t.length := by
  have skipped := length_skip_le m t
  unfold openBracket at h
  split at h
  · rename_i r opened
    rw [opened, List.length_cons] at skipped
    have := length_skip_le m r
    have := length_firstMembers_le h
    omega
  · exact Nat.le_trans (length_firstMembers_le h) skipped

/-! ## Sets in brackets -/

/-- Each part of a set takes up some of the text. -/
theorem OpenSet.length_next_lt {s : OpenSet} {o : (Nat × Text) ⊕ OpenSet} (h : s.next m = some o) :
    (Sum.elim Prod.snd OpenSet.rest o).length < s.rest.length := by
  refine Nat.lt_of_lt_of_le ?_ (length_skip_le m s.rest)
  unfold OpenSet.next at h
  split at h
  · cases h
  · rename_i r found
    rw [found]
    obtain ⟨closed, -, h⟩ := Option.map_eq_some_iff.1 h
    split at h <;> cases h <;> exact Nat.lt_succ_self _
  · rename_i r found
    rw [found]
    split at h
    · rename_i named
      split at h
      · cases h
        exact Nat.lt_succ_of_lt (length_namedClass_lt named)
      · cases h
    · obtain ⟨⟨inner, rest⟩, opened, h⟩ := Option.map_eq_some_iff.1 h
      cases h
      exact Nat.lt_succ_of_le (length_openBracket_le opened)
  -- the three signs of operation have two characters each
  iterate 3
    rename_i r found
    rw [found]
    obtain ⟨b, -, h⟩ := Option.map_eq_some_iff.1 h
    cases h
    exact Nat.lt_succ_of_lt (Nat.lt_succ_self _)
  · obtain ⟨rest, member, h⟩ := Option.map_eq_some_iff.1 h
    cases h
    exact length_afterMember_lt member

theorem OpenSet.length_lt_of_reaches {s : OpenSet} {o : Nat × Text}
    (h : Reaches (OpenSet.next m) s o) : o.2.length < s.rest.length := by
  induction h with
  | done closed => exact length_next_lt closed
  | step go _ ih => exact Nat.lt_trans ih (length_next_lt go)

/-- **Sets in brackets**, without a bound on the steps of the reader. -/
theorem bracket_eq_some_iff {height : Nat} :
    bracket m t = some (height, rest) ↔ ∃ b r, openBracket m t = some (b, r) ∧
      Reaches (OpenSet.next m) { inner := b, rest := r } (height, rest) := by
  have enough (b : Bracket) (r : Text) :
      runSteps (OpenSet.next m) (r.length + 1) { inner := b, rest := r } = some (height, rest) ↔
        Reaches (OpenSet.next m) { inner := b, rest := r } (height, rest) :=
    runSteps_eq_some_iff (·.rest.length) (fun _ _ h => OpenSet.length_next_lt h)
      (Nat.lt_succ_self _)
  simp only [bracket, Option.bind_eq_some_iff, Prod.exists, enough]

theorem length_bracket_lt {height : Nat} (h : bracket m t = some (height, rest)) :
    rest.length < t.length := by
  obtain ⟨b, r, opened, reaches⟩ := bracket_eq_some_iff.1 h
  exact Nat.lt_of_lt_of_le (OpenSet.length_lt_of_reaches reaches) (length_openBracket_le opened)

/-! ## Patterns -/

theorem length_namedGroup_le {p q : Progress} (h : namedGroup p t = some (q, rest)) :
    rest.length ≤ t.length := by
  unfold namedGroup at h
  dsimp only at h
  split at h
  · rename_i closing
    have dropped := congrArg List.length closing
    simp only [List.length_drop, List.length_cons] at dropped
    split at h
    · cases h
      omega
    · cases h
  · cases h

theorem length_switches_le {p q : Progress} (h : switches p t = some (q, rest)) :
    rest.length ≤ t.length := by
  unfold switches at h
  dsimp only at h
  split at h
  · cases h
  · split at h
    · rename_i closing
      have dropped := congrArg List.length closing
      simp only [List.length_drop, List.length_cons] at dropped
      cases h
      omega
    · rename_i closing
      have dropped := congrArg List.length closing
      simp only [List.length_drop, List.length_cons] at dropped
      split at h
      · cases h
      · cases h
        omega
    · cases h

theorem length_group_le {p q : Progress} (h : group p t = some (q, rest)) :
    rest.length ≤ t.length := by
  refine Nat.le_trans ?_ (length_skip_le p.mode t)
  unfold group at h
  dsimp only at h
  split at h
  · cases h
  · split at h
    · rename_i found
      rw [found]
      have := length_namedGroup_le h
      simp only [List.length_cons]
      omega
    · rename_i found
      rw [found]
      have := length_namedGroup_le h
      simp only [List.length_cons]
      omega
    · rename_i found
      rw [found]
      exact Nat.le_succ_of_le (length_switches_le h)
    · cases h
      exact Nat.le_refl _

theorem length_repeated_le {p q : Progress}
    (h : (p.inner.repeatLast.map fun inner =>
      ({ p with inner }, if t.head? = some '?' then t.tail else t)) = some (q, rest)) :
    rest.length ≤ t.length := by
  obtain ⟨inner, -, h⟩ := Option.map_eq_some_iff.1 h
  cases h
  split
  · rw [List.length_tail]
    omega
  · exact Nat.le_refl _

/-- No part of a pattern gives back more text than it was given. -/
theorem length_step_le {p q : Progress} {c : Char} (h : step p c t = some (q, rest)) :
    rest.length ≤ t.length := by
  unfold step at h
  split at h
  · exact length_group_le h
  · obtain ⟨q, -, h⟩ := Option.map_eq_some_iff.1 h
    cases h
    exact Nat.le_refl _
  · cases h
    exact Nat.le_refl _
  · obtain ⟨⟨height, r⟩, set, h⟩ := Option.map_eq_some_iff.1 h
    cases h
    exact Nat.le_of_lt (length_bracket_lt set)
  · exact length_repeated_le h
  · exact length_repeated_le h
  · exact length_repeated_le h
  · cases h
  · obtain ⟨⟨e, r⟩, read, h⟩ := Option.bind_eq_some_iff.1 h
    dsimp only at h
    split at h
    · cases h
      exact Nat.le_of_lt (Escape.length_read_lt read)
    · cases h
  · split at h
    · cases h
    · cases h
      exact Nat.le_refl _
  · cases h
    exact Nat.le_refl _
  · cases h
    exact Nat.le_refl _
  · split at h
    · cases h
      exact Nat.le_refl _
    · cases h

theorem Progress.length_next_lt {s s' : Progress × Text} (h : Progress.next s = some (.inr s')) :
    s'.2.length < s.2.length := by
  obtain ⟨p, t⟩ := s
  refine Nat.lt_of_lt_of_le ?_ (length_skip_le p.mode t)
  unfold next at h
  dsimp only at h
  split at h
  · cases h
  · rename_i found
    rw [found]
    obtain ⟨⟨q, rest⟩, took, h⟩ := Option.map_eq_some_iff.1 h
    cases h
    exact Nat.lt_succ_of_le (length_step_le took)

/-- **Patterns**, without a bound on the steps of the reader. -/
theorem isPattern_iff :
    isPattern t = true ↔ ∃ p, Reaches Progress.next ({}, t) p ∧ p.outer = [] ∧
      p.inner.height ≤ heightLimit := by
  have enough (p : Progress) : runSteps Progress.next (t.length + 1) ({}, t) = some p ↔
      Reaches Progress.next ({}, t) p :=
    runSteps_eq_some_iff (·.2.length) (fun _ _ h => Progress.length_next_lt h) (Nat.lt_succ_self _)
  simp only [← enough, isPattern]
  cases runSteps Progress.next (t.length + 1) ({}, t) <;> simp

example : isPattern "(a|[b-d&&[^c]])*e?".toList = true ∧ isPattern "(a|b".toList = false := by
  decide +kernel

/-! ## Words -/

/-- The characters that stand for themselves. -/
def IsPlain (c : Char) : Prop := c ∉ "()|[?*+\x7b\\.^$".toList

theorem step_of_isPlain {p : Progress} {c : Char} (h : IsPlain c) (knows : p.mode.knowsCases = true)
    (t : Text) : step p c t = some (p.push 0, t) := by
  have special : ∀ x ∈ "()|[?*+\x7b\\.^$".toList, c ≠ x := fun x hx same => h (same ▸ hx)
  unfold step
  split
  case h_13 => rw [if_pos knows]
  all_goals exact absurd rfl (special _ (by decide))

/-- The progress after so many plain characters. -/
def wordProgress (n : Nat) : Progress := { inner := { items := List.replicate n ⟨0, true⟩ } }

theorem reaches_of_plain (h : ∀ c ∈ t, IsPlain c) (n : Nat) :
    Reaches Progress.next (wordProgress n, t) (wordProgress (n + t.length)) := by
  induction t generalizing n with
  | nil => exact .done rfl
  | cons c t ih =>
    have plain : step (wordProgress n) c t = some (wordProgress (n + 1), t) :=
      step_of_isPlain (h c (by simp)) rfl t
    have go : Progress.next (wordProgress n, c :: t) = some (.inr (wordProgress (n + 1), t)) := by
      change (step (wordProgress n) c t).map Sum.inr = _
      rw [plain, Option.map_some]
    have rest := ih (fun x hx => h x (List.mem_cons_of_mem c hx)) (n + 1)
    rw [Nat.add_right_comm] at rest
    exact .step go rest

theorem foldl_max_replicate_zero (n : Nat) : (List.replicate n 0).foldl max 0 = 0 := by
  induction n with
  | zero => rfl
  | succ n ih => rwa [List.replicate_succ, List.foldl_cons, Nat.max_self]

theorem height_wordProgress_le (n : Nat) : (wordProgress n).inner.height ≤ 1 := by
  have whole : (wordProgress n).inner.height = joint (List.replicate n 0) := by
    simp [Sequence.height, Sequence.bar, wordProgress, joint]
  rw [whole]
  match n with
  | 0 => decide
  | 1 => decide
  | n + 2 =>
    have flat := foldl_max_replicate_zero (n + 2)
    change (List.replicate (n + 2) 0).foldl max 0 + 1 ≤ 1
    omega

/-- **Words are patterns**, as long as they like. -/
theorem isPattern_of_plain (h : ∀ c ∈ t, IsPlain c) : isPattern t = true := by
  refine isPattern_iff.2 ⟨wordProgress t.length, ?_, rfl, ?_⟩
  · have := reaches_of_plain h 0
    rwa [Nat.zero_add] at this
  · exact Nat.le_trans (height_wordProgress_le t.length) (by decide)

end DrillPost.Pattern
