import DrillPost.Proofs.Gcode.Words

/-!
# Programs read back

A controller sees a program as text. It cuts the text at the line feeds, and what it acts on are
the lines that begin with `N`: their words behind the number. A program is read back as the words of
its blocks, in order, whatever its remarks say; all that is asked of them is that the text they
quote stays on its line.

* `readBlocks`: the numbered lines of a text, as words;
* `IsAside`: lines without a number, as remarks are (`Remark.isAside_text`);
* `blocks`, `rowsOf`: the blocks of a program, and their words;
* `Line.Flat`: a line whose quotations hold no line feed;
* `readBlocks_write`: what is read of a program;
* `numberedLines`: rows of words as the numbered lines of a text (`write_map_block`);
* `holeTexts`, `Block.hole?`: the position of a hole, as it is read and as it was meant.
-/

namespace DrillPost.Gcode

/-! ## Reading -/

/-- The words behind the number of a line; none when the line does not begin with `N`. -/
def wordsBehindNumber : Text → Option (List Text)
  | 'N' :: rest => some (splitOn ' ' rest).tail
  | _ => none

/-- The numbered lines of a text, each as the words behind its number. -/
def readBlocks (t : Text) : List (List Text) := (splitOn '\n' t).filterMap wordsBehindNumber

theorem readBlocks_append_cons {t : Text} (h : '\n' ∉ t) (rest : Text) :
    readBlocks (t ++ '\n' :: rest) = (wordsBehindNumber t).toList ++ readBlocks rest := by
  rw [readBlocks, splitOn_append_cons h]
  cases ht : wordsBehindNumber t with
  | none => simp [readBlocks, ht]
  | some ws => simp [readBlocks, ht]

theorem wordsBehindNumber_of_ne {c : Char} (h : c ≠ 'N') (t : Text) :
    wordsBehindNumber (c :: t) = none := by
  unfold wordsBehindNumber
  split
  · rename_i heq
    exact absurd (List.cons.inj heq).1 h
  · rfl

/-- A line that is empty or begins like a remark. -/
def IsAside (line : Text) : Prop :=
  line = [] ∨ line.head? = some '(' ∨ line.head? = some ';'

theorem IsAside.wordsBehindNumber_eq_none {line : Text} (h : IsAside line) :
    wordsBehindNumber line = none := by
  rcases h with rfl | h | h
  · rfl
  all_goals
    obtain ⟨rest, rfl⟩ := List.head?_eq_some_iff.1 h
    exact wordsBehindNumber_of_ne (by decide) rest

/-- The texts behind `X` and `Y` in the words of a hole: of one that starts the drilling cycle, or
of one more hole of the cycle. -/
def holeTexts : List Text → Option (Text × Text)
  | ['X' :: x, 'Y' :: y] => some (x, y)
  | ['G', '9', '8'] :: ['G', '8', '1'] :: ('X' :: x) :: ('Y' :: y) :: _ => some (x, y)
  | _ => none

/-! ## Lines of a program -/

/-- The block of a line. -/
def Line.block? : Line → Option Block
  | .block b => some b
  | _ => none

/-- The blocks of a program, from first to last. -/
def blocks (p : Program) : List Block := p.filterMap Line.block?

@[simp] theorem blocks_nil : blocks [] = [] := rfl

@[simp] theorem blocks_cons_empty (p : Program) : blocks (.empty :: p) = blocks p := rfl

@[simp] theorem blocks_cons_remark (r : Remark) (p : Program) :
    blocks (.remark r :: p) = blocks p := rfl

@[simp] theorem blocks_cons_block (b : Block) (p : Program) :
    blocks (.block b :: p) = b :: blocks p := rfl

@[simp] theorem blocks_append (p q : Program) : blocks (p ++ q) = blocks p ++ blocks q :=
  List.filterMap_append

/-- The words of the blocks of a program, a row for each. -/
def rowsOf (precision : Option Nat) (p : Program) : List (List Text) :=
  (blocks p).map (Block.words precision)

@[simp] theorem rowsOf_append (precision : Option Nat) (p q : Program) :
    rowsOf precision (p ++ q) = rowsOf precision p ++ rowsOf precision q := by
  simp [rowsOf]

/-- The text that a remark quotes holds no line feed. -/
def Remark.Flat : Remark → Prop
  | .toolDefinition number diameter => '\n' ∉ number ∧ '\n' ∉ diameter
  | .rejected _ line => '\n' ∉ line
  | _ => True

/-- The text that a line quotes, if it is a remark, holds no line feed. -/
def Line.Flat : Line → Prop
  | .remark r => r.Flat
  | _ => True

theorem Remark.lineFeed_notMem_text {r : Remark} (h : r.Flat) : '\n' ∉ r.text := by
  unfold text
  cases r with
  | rule | title | programEnd => decide
  | drillStart tool =>
    have number : '\n' ∉ Number.digits tool.toNat := (Number.isWord_digits _).lineFeed
    simp [number]
  | toolDefinition number diameter =>
    obtain ⟨hn, hd⟩ := h
    simp [hn, hd]
  | rejected anomaly line =>
    have hl : '\n' ∉ line := h
    cases anomaly <;> simp [hl]

/-- A remark begins with a parenthesis or a semicolon. -/
theorem Remark.isAside_text (r : Remark) : IsAside r.text := by
  refine .inr ?_
  unfold text
  cases r with
  | rule | title | drillStart tool | programEnd | toolDefinition number diameter =>
    exact .inl (by simp)
  | rejected anomaly line =>
    cases anomaly with
    | unrecognizedCode => exact .inr (by simp)
    | unknownMachineCode | malformedNumber => exact .inl (by simp)

theorem Line.lineFeed_notMem_text (precision : Option Nat) (n : Nat) {l : Line} (h : l.Flat) :
    '\n' ∉ l.text precision n := by
  cases l with
  | empty => exact List.not_mem_nil
  | remark r => exact Remark.lineFeed_notMem_text h
  | block b =>
    have number : '\n' ∉ Number.digits (numberStep * (n + 1)) := (Number.isWord_digits _).lineFeed
    have words : '\n' ∉ b.text precision := b.lineFeed_notMem_text precision
    simp only [text, List.mem_append, List.mem_cons, not_or]
    exact ⟨⟨by decide, number⟩, by decide, words⟩

theorem Line.wordsBehindNumber_text (precision : Option Nat) (n : Nat) (l : Line) :
    wordsBehindNumber (l.text precision n) = l.block?.map (Block.words precision) := by
  cases l with
  | empty => rfl
  | remark r => exact r.isAside_text.wordsBehindNumber_eq_none
  | block b =>
    have number : ' ' ∉ Number.digits (numberStep * (n + 1)) := (Number.isWord_digits _).blank
    have key : splitOn ' ' (Number.digits (numberStep * (n + 1)) ++ ' ' :: b.text precision) =
        Number.digits (numberStep * (n + 1)) :: b.words precision := by
      rw [splitOn_append_cons number, b.splitOn_text]
    simp only [text, List.cons_append, wordsBehindNumber, key, List.tail_cons, block?,
      Option.map_some]

/-- **What is read of a program**: the words of its blocks, in order. -/
theorem readBlocks_write (precision : Option Nat) (n : Nat) {p : Program}
    (h : ∀ l ∈ p, l.Flat) :
    readBlocks (write precision n p) = rowsOf precision p := by
  induction p generalizing n with
  | nil => rfl
  | cons l p ih =>
    have hl : l.Flat := h l List.mem_cons_self
    rw [write_cons, readBlocks_append_cons (l.lineFeed_notMem_text precision n hl),
      ih _ fun m hm => h m (List.mem_cons_of_mem l hm), l.wordsBehindNumber_text]
    cases hb : l.block? with
    | none => simp [rowsOf, blocks, hb]
    | some b => simp [rowsOf, blocks, hb]

/-! ## Numbered lines -/

/-- Rows of words, written as the numbered lines that come after so many others. -/
def numberedLines (n : Nat) : List (List Text) → Text
  | [] => []
  | row :: rows =>
    'N' :: Number.digits (10 * (n + 1)) ++ ' ' :: unwords row ++
      '\n' :: numberedLines (n + 1) rows

/-- Blocks are written as their words on numbered lines. -/
theorem write_map_block (precision : Option Nat) (n : Nat) (bs : List Block) :
    write precision n (bs.map .block) = numberedLines n (bs.map (Block.words precision)) := by
  induction bs generalizing n with
  | nil => rfl
  | cons b bs ih =>
    rw [List.map_cons, write_cons, ih, List.map_cons, numberedLines, ← b.text_eq_unwords]
    rfl

theorem blocks_map_block (bs : List Block) : blocks (bs.map .block) = bs := by
  rw [blocks, List.filterMap_map]
  exact List.filterMap_some

/-- The words on the numbered lines of blocks are read back. -/
theorem readBlocks_numberedLines (precision : Option Nat) (n : Nat) (bs : List Block) :
    readBlocks (numberedLines n (bs.map (Block.words precision))) =
      bs.map (Block.words precision) := by
  have flat : ∀ l ∈ bs.map Line.block, l.Flat := by simp [Line.Flat]
  rw [← write_map_block, readBlocks_write precision n flat, rowsOf, blocks_map_block]

/-! ## Holes -/

/-- The position of a hole. -/
def Block.hole? : Block → Option (Int × Int)
  | .drillCycle x y _ _ _ | .hole x y => some (x, y)
  | _ => none

/-- A hole is read where there is one, and nowhere else. -/
theorem Block.holeTexts_words (precision : Option Nat) (b : Block) :
    holeTexts (b.words precision) = b.hole?.map fun (x, y) =>
      (coordinate precision (hundredThousandths x),
        coordinate precision (hundredThousandths y)) := by
  cases b with
  | unit u => cases u <;> rfl
  | _ => rfl

end DrillPost.Gcode
