/-!
# Maps that carry a state

`threaded f s xs` maps a list from left to right while a state passes through it: `f` takes the
state and an element, and gives the state for the next element and the element's image.
-/

namespace DrillPost

variable {σ α β : Type}

/-- One element more: the state behind it, and its image in front of those that are there. -/
def threadedStep (f : σ → α → σ × β) : σ × List β → α → σ × List β
  | (s, ys), x =>
    let (s', y) := f s x
    (s', y :: ys)

/-- The state at the end of a list, and the images of its elements. -/
def threaded (f : σ → α → σ × β) (s : σ) (xs : List α) : σ × List β :=
  let r := xs.foldl (threadedStep f) (s, [])
  (r.1, r.2.reverse)

@[simp] theorem threaded_nil (f : σ → α → σ × β) (s : σ) : threaded f s [] = (s, []) := rfl

theorem foldl_threaded (f : σ → α → σ × β) (xs : List α) (s : σ) (ys : List β) :
    xs.foldl (threadedStep f) (s, ys) =
      ((threaded f s xs).1, (threaded f s xs).2.reverse ++ ys) := by
  induction xs generalizing s ys with
  | nil => simp [threaded]
  | cons x xs ih =>
    simp only [threaded, List.foldl_cons, threadedStep]
    rw [ih, ih (f s x).1 [(f s x).2]]
    simp

theorem threaded_cons (f : σ → α → σ × β) (s : σ) (x : α) (xs : List α) :
    threaded f s (x :: xs) =
      ((threaded f (f s x).1 xs).1, (f s x).2 :: (threaded f (f s x).1 xs).2) := by
  conv => lhs; simp only [threaded, List.foldl_cons, threadedStep]
  rw [foldl_threaded]
  simp

theorem threaded_append (f : σ → α → σ × β) (s : σ) (xs ys : List α) :
    threaded f s (xs ++ ys) =
      ((threaded f (threaded f s xs).1 ys).1,
        (threaded f s xs).2 ++ (threaded f (threaded f s xs).1 ys).2) := by
  induction xs generalizing s with
  | nil => simp
  | cons x xs ih => simp [threaded_cons, ih]

end DrillPost
