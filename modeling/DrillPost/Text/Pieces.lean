import DrillPost.Text.Blank

/-!
# Pieces between separators

A sequence cut at a separator, for the lines of a text, the lines of a byte stream, the names in a
path and the parts of a list.

* `pieces sep xs`: what ends with `sep`, which belongs to it, and what is left over at the end, if
  anything;
* `closedPart sep xs`: the sequence up to its last separator;
* `splitOn sep xs`: what lies between separators, empty stretches included;
* `dropFinal x xs`: the sequence without a given last element;
* `Text.lines`: the lines of a text.
-/

namespace DrillPost

variable {α : Type} [BEq α]

/-- The pieces of a sequence: each ends with the separator, which belongs to it; an unfinished last
piece counts only when it is not empty. -/
def pieces (sep : α) (xs : List α) : List (List α) :=
  xs.foldr (fun x ps =>
    if x == sep then [x] :: ps
    else match ps with
      | [] => [[x]]
      | p :: rest => (x :: p) :: rest) []

@[simp] theorem pieces_nil (sep : α) : pieces sep [] = [] := rfl

theorem pieces_cons_sep (sep x : α) (xs : List α) (h : (x == sep) = true) :
    pieces sep (x :: xs) = [x] :: pieces sep xs := by
  simp [pieces, h]

theorem pieces_cons_of_nil (sep x : α) (xs : List α) (h : (x == sep) = false)
    (hp : pieces sep xs = []) : pieces sep (x :: xs) = [[x]] := by
  unfold pieces at hp ⊢
  simp [h, hp]

theorem pieces_cons_of_cons (sep x : α) (xs p : List α) (ps : List (List α))
    (h : (x == sep) = false) (hp : pieces sep xs = p :: ps) :
    pieces sep (x :: xs) = (x :: p) :: ps := by
  unfold pieces at hp ⊢
  simp [h, hp]

/-- The part of a sequence up to its last separator, which belongs to it. -/
def closedPart (sep : α) (xs : List α) : List α :=
  (xs.reverse.dropWhile (fun x => !(x == sep))).reverse

/-- What lies between the separators. A sequence without any is its own only part. -/
def splitOn (sep : α) (xs : List α) : List (List α) :=
  xs.foldr (fun x ps =>
    if x == sep then [] :: ps
    else match ps with
      | [] => [[x]]
      | p :: rest => (x :: p) :: rest) [[]]

@[simp] theorem splitOn_nil (sep : α) : splitOn sep [] = [[]] := rfl

/-- A sequence without its last element, where this is a given one. -/
def dropFinal (x : α) (xs : List α) : List α :=
  if xs.getLast?.any (· == x) then xs.dropLast else xs

@[simp] theorem dropFinal_nil (x : α) : dropFinal x [] = [] := rfl

theorem dropFinal_concat_self [ReflBEq α] (x : α) (xs : List α) : dropFinal x (xs ++ [x]) = xs := by
  simp [dropFinal]

theorem dropFinal_concat_of_ne (xs : List α) {x y : α} (h : (y == x) = false) :
    dropFinal x (xs ++ [y]) = xs ++ [y] := by
  simp [dropFinal, h]

/-- A piece of a text as a line: without the line feed at its end and a carriage return in front of
it. An unfinished line keeps its carriage return. -/
def Text.withoutLineEnd (piece : Text) : Text :=
  if piece.getLast? = some '\n' then dropFinal '\r' piece.dropLast else piece

def Text.lines (t : Text) : List Text := (pieces '\n' t).map withoutLineEnd

end DrillPost
