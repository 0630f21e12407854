import DrillPost.Proofs.Text.Separation
import Mathlib

/-!
# Sequences that end with a separator

A sequence can be cut behind each of its separators, and its pieces are then those of the two parts
one after the other. The last of these cuts leaves the part in front of it, which is closed, and an
open part that holds no separator.

* `Closed`: nothing, or a sequence with a separator at its end;
* `pieces_append`, `Text.lines_append`: the pieces and the lines of a closed part and the rest;
* `openPart`: what stands behind the last separator (`closedPart_append_openPart`);
* `pieces_closedPart_concat`: one more element closes a piece, or stays open;
* `length_pieces_closedPart`: each separator closes one piece.
-/

namespace DrillPost

section

variable {α : Type} (sep : α)

/-- Nothing, or a sequence whose last element is the separator. -/
def Closed (xs : List α) : Prop := xs = [] ∨ xs.getLast? = some sep

variable {sep}

theorem closed_nil : Closed sep [] := .inl rfl

theorem closed_concat (xs : List α) : Closed sep (xs ++ [sep]) := .inr List.getLast?_concat

/-- Behind a separator, a closed sequence is closed. -/
theorem Closed.of_append_cons {p rest : List α} (h : Closed sep (p ++ sep :: rest)) :
    Closed sep rest := by
  rcases List.eq_nil_or_concat rest with rfl | ⟨init, x, rfl⟩
  · exact closed_nil
  · rcases h with h | h
    · simp at h
    · rw [List.concat_eq_append, ← List.cons_append, ← List.append_assoc,
        List.getLast?_concat] at h
      rw [List.concat_eq_append, Option.some.inj h]
      exact closed_concat init

theorem Closed.eq_nil {p : List α} (h : Closed sep p) (hp : sep ∉ p) : p = [] := by
  rcases h with h | h
  · exact h
  · exact absurd (List.mem_of_getLast? h) hp

variable [BEq α]

/-! ## The part behind the last separator -/

/-- What stands behind the last separator. -/
def openPart (sep : α) (xs : List α) : List α :=
  (xs.reverse.takeWhile (fun x => !(x == sep))).reverse

theorem closedPart_append_openPart (sep : α) (xs : List α) :
    closedPart sep xs ++ openPart sep xs = xs := by
  rw [closedPart, openPart, ← List.reverse_append, List.takeWhile_append_dropWhile,
    List.reverse_reverse]

theorem closedPart_concat (sep : α) (xs : List α) (x : α) :
    closedPart sep (xs ++ [x]) = if x == sep then xs ++ [x] else closedPart sep xs := by
  cases h : x == sep <;> simp [closedPart, h]

theorem openPart_concat (sep : α) (xs : List α) (x : α) :
    openPart sep (xs ++ [x]) = if x == sep then [] else openPart sep xs ++ [x] := by
  cases h : x == sep <;> simp [openPart, h]

variable [LawfulBEq α]

theorem notMem_openPart (sep : α) (xs : List α) : sep ∉ openPart sep xs := by
  intro h
  have := List.mem_takeWhile_imp (List.mem_reverse.1 h)
  simp at this

theorem closed_closedPart (sep : α) (xs : List α) : Closed sep (closedPart sep xs) := by
  induction xs using List.reverseRecOn with
  | nil => exact closed_nil
  | append_singleton xs x ih =>
    rw [closedPart_concat]
    split
    · rename_i h
      rw [eq_of_beq h]
      exact closed_concat xs
    · exact ih

theorem closedPart_of_closed {xs : List α} (h : Closed sep xs) : closedPart sep xs = xs := by
  rcases List.eq_nil_or_concat xs with rfl | ⟨init, x, rfl⟩
  · rfl
  · rw [List.concat_eq_append] at h ⊢
    rcases h with h | h
    · simp at h
    · rw [List.getLast?_concat] at h
      rw [closedPart_concat, Option.some.inj h, beq_self_eq_true, if_pos rfl]

/-- Elements that are no separators stay open. -/
theorem closedPart_append_of_notMem {ys : List α} (h : sep ∉ ys) (xs : List α) :
    closedPart sep (xs ++ ys) = closedPart sep xs := by
  induction ys using List.reverseRecOn with
  | nil => rw [List.append_nil]
  | append_singleton ys y ih =>
    simp only [List.mem_append, List.mem_singleton, not_or] at h
    have hy : (y == sep) = false := beq_eq_false_iff_ne.2 (Ne.symm h.2)
    rw [← List.append_assoc, closedPart_concat, hy, if_neg Bool.false_ne_true, ih h.1]

/-! ## Pieces -/

/-- **The pieces of a closed part and the rest.** -/
theorem pieces_append {xs : List α} (h : Closed sep xs) (ys : List α) :
    pieces sep (xs ++ ys) = pieces sep xs ++ pieces sep ys := by
  induction xs using separated_induction sep with
  | last p hp =>
    rw [h.eq_nil hp]
    rfl
  | next p rest hp ih =>
    rw [List.append_assoc, List.cons_append, pieces_append_cons hp, pieces_append_cons hp,
      ih h.of_append_cons, List.cons_append]

/-- **One more element** closes the open piece when it is a separator. -/
theorem pieces_closedPart_concat (sep : α) (xs : List α) (x : α) :
    pieces sep (closedPart sep (xs ++ [x])) =
      pieces sep (closedPart sep xs) ++ if x == sep then [openPart sep xs ++ [x]] else [] := by
  rw [closedPart_concat]
  split
  · rename_i h
    obtain rfl := eq_of_beq h
    have piece : pieces x (openPart x xs ++ [x]) = [openPart x xs ++ [x]] :=
      pieces_append_cons (notMem_openPart x xs) []
    conv => lhs; rw [← closedPart_append_openPart x xs, List.append_assoc]
    rw [pieces_append (closed_closedPart x xs), piece]
  · rw [List.append_nil]

/-- Each separator closes one piece. -/
theorem length_pieces_closedPart (sep : α) (xs : List α) :
    (pieces sep (closedPart sep xs)).length = xs.count sep := by
  induction xs using List.reverseRecOn with
  | nil => rfl
  | append_singleton xs x ih =>
    rw [pieces_closedPart_concat, List.length_append, ih, List.count_append, List.count_singleton]
    split <;> rfl

end

/-- **The lines of a closed part and the rest.** -/
theorem Text.lines_append {t : Text} (h : Closed '\n' t) (u : Text) :
    lines (t ++ u) = lines t ++ lines u := by
  simp only [lines, pieces_append h, List.map_append]

end DrillPost
