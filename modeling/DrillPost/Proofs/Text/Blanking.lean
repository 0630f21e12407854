import DrillPost.Proofs.Text.Separation
import Mathlib

/-!
# Lines blanked out

Some lines of a text are replaced by a single space each, and their line ends stay. So the text has
as many lines as before, and the others are the same.

* `replaceAt`: a list with the elements at some places replaced;
* `Text.lineEnd`: the end of a line;
* `blankOut`: a text with some of its lines blanked out (`lines_blankOut`).
-/

namespace DrillPost

/-! ## Places of a list -/

section

variable {α : Type} (chosen : Nat → Bool) (f : α → α)

/-- A list whose elements at the chosen places, counted from one, are replaced. -/
def replaceAt (xs : List α) : List α :=
  xs.mapIdx fun i x => if chosen (i + 1) then f x else x

@[simp] theorem replaceAt_nil : replaceAt chosen f [] = [] := rfl

theorem replaceAt_cons (x : α) (xs : List α) :
    replaceAt chosen f (x :: xs) =
      (if chosen 1 then f x else x) :: replaceAt (fun n => chosen (n + 1)) f xs :=
  List.mapIdx_cons

theorem replaceAt_concat (xs : List α) (x : α) :
    replaceAt chosen f (xs ++ [x]) =
      replaceAt chosen f xs ++ [if chosen (xs.length + 1) then f x else x] :=
  List.mapIdx_concat

end

/-! ## Lines blanked out -/

/-- The line feed at the end of a piece of a text and the carriage return in front of it, as far as
these are there. -/
def Text.lineEnd (piece : Text) : Text := piece.drop (Text.withoutLineEnd piece).length

/-- A text whose chosen lines, counted from one, are replaced by a single space each. Their line
ends stay. -/
def blankOut (chosen : Nat → Bool) (t : Text) : Text :=
  (replaceAt chosen (fun piece => ' ' :: Text.lineEnd piece) (pieces '\n' t)).flatten

theorem blankOut_of_notMem (chosen : Nat → Bool) {t : Text} (h : '\n' ∉ t) (hne : t ≠ []) :
    blankOut chosen t = if chosen 1 then [' '] else t := by
  have whole : Text.withoutLineEnd t = t := by
    have last : t.getLast? ≠ some '\n' := fun hl => h (List.mem_of_getLast? hl)
    rw [Text.withoutLineEnd, if_neg last]
  simp [blankOut, pieces_of_notMem h hne, replaceAt_cons, Text.lineEnd, whole]

/-- The end of a line that has one: a line feed, or a carriage return and a line feed. -/
theorem lineEnd_concat (t : Text) :
    Text.lineEnd (t ++ ['\n']) = ['\n'] ∨ Text.lineEnd (t ++ ['\n']) = ['\r', '\n'] := by
  have cut : Text.withoutLineEnd (t ++ ['\n']) = dropFinal '\r' t := by
    simp [Text.withoutLineEnd]
  rw [Text.lineEnd, cut]
  rcases List.eq_nil_or_concat t with rfl | ⟨front, c, rfl⟩
  · exact .inl rfl
  · rw [List.concat_eq_append]
    by_cases hc : c = '\r'
    · subst hc
      rw [dropFinal_concat_self]
      exact .inr (by simp)
    · rw [dropFinal_concat_of_ne front (beq_eq_false_iff_ne.2 hc)]
      exact .inl (by simp)

theorem blankOut_append_cons (chosen : Nat → Bool) {t : Text} (h : '\n' ∉ t) (rest : Text) :
    blankOut chosen (t ++ '\n' :: rest) =
      (if chosen 1 then ' ' :: Text.lineEnd (t ++ ['\n']) else t ++ ['\n']) ++
        blankOut (fun n => chosen (n + 1)) rest := by
  rw [blankOut, pieces_append_cons h, replaceAt_cons, List.flatten_cons]
  rfl

/-- **The lines of a text with lines blanked out.** -/
theorem lines_blankOut (chosen : Nat → Bool) (t : Text) :
    Text.lines (blankOut chosen t) = replaceAt chosen (fun _ => [' ']) (Text.lines t) := by
  induction t using separated_induction '\n' generalizing chosen with
  | last t ht =>
    by_cases hne : t = []
    · subst hne
      rfl
    · rw [blankOut_of_notMem chosen ht hne, Text.lines_of_notMem ht hne, replaceAt_cons]
      split
      · rfl
      · exact Text.lines_of_notMem ht hne
  | next t rest ht ih =>
    rw [blankOut_append_cons chosen ht, Text.lines_append_cons ht, replaceAt_cons, ← ih]
    split
    · -- The carriage return of a line end stays with it, and is dropped with it.
      rcases lineEnd_concat t with ending | ending
      · rw [ending]
        exact Text.lines_append_cons (show '\n' ∉ [' '] by decide) _
      · rw [ending]
        exact Text.lines_append_cons (show '\n' ∉ [' ', '\r'] by decide) _
    · rw [List.append_assoc]
      exact Text.lines_append_cons ht _

end DrillPost
