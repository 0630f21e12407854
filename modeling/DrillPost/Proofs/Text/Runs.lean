import DrillPost.Text.Blank

/-!
# Runs of characters of a kind

A run of elements of a kind goes as far as it can when nothing or an element of another kind follows
it. Then it is what is taken from a sequence as long as the elements are of the kind, and the rest
is what is dropped.

* `EndsRun`: what may follow such a run (`endsRun_dropWhile`);
* `takeWhile_append_of_endsRun`, `dropWhile_append_of_endsRun`: the run, and what follows it.
-/

namespace DrillPost

variable {α : Type} {p : α → Bool} {run rest : List α}

/-- What may follow a run of elements of a kind that goes as far as it can: nothing, or an element
of another kind. -/
def EndsRun (p : α → Bool) (rest : List α) : Prop := ∀ x ∈ rest.head?, p x = false

@[simp] theorem endsRun_nil (p : α → Bool) : EndsRun p [] := by simp [EndsRun]

@[simp] theorem endsRun_cons (p : α → Bool) (x : α) (xs : List α) :
    EndsRun p (x :: xs) ↔ p x = false := by
  simp [EndsRun]

theorem endsRun_dropWhile (p : α → Bool) (xs : List α) : EndsRun p (xs.dropWhile p) := by
  induction xs with
  | nil => exact endsRun_nil p
  | cons x xs ih =>
    cases hx : p x with
    | true => rwa [List.dropWhile_cons_of_pos hx]
    | false =>
      rw [List.dropWhile_cons_of_neg (Bool.eq_false_iff.1 hx)]
      exact (endsRun_cons p x xs).2 hx

theorem EndsRun.takeWhile_eq_nil (h : EndsRun p rest) : rest.takeWhile p = [] := by
  cases rest with
  | nil => rfl
  | cons x xs => exact List.takeWhile_cons_of_neg (Bool.eq_false_iff.1 ((endsRun_cons p x xs).1 h))

theorem EndsRun.dropWhile_eq_self (h : EndsRun p rest) : rest.dropWhile p = rest := by
  cases rest with
  | nil => rfl
  | cons x xs => exact List.dropWhile_cons_of_neg (Bool.eq_false_iff.1 ((endsRun_cons p x xs).1 h))

theorem takeWhile_append_of_endsRun (hr : ∀ x ∈ run, p x = true) (h : EndsRun p rest) :
    (run ++ rest).takeWhile p = run := by
  rw [List.takeWhile_append_of_pos hr, h.takeWhile_eq_nil, List.append_nil]

theorem dropWhile_append_of_endsRun (hr : ∀ x ∈ run, p x = true) (h : EndsRun p rest) :
    (run ++ rest).dropWhile p = rest := by
  rw [List.dropWhile_append_of_pos hr, h.dropWhile_eq_self]

end DrillPost
