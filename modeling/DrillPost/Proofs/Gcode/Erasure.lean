import DrillPost.Proofs.Gcode.Numbering

/-!
# What settings write into a program

The settings give a program the speed of its spindle, its heights and its feed rate, and the number
of places of its coordinates. When these numbers are erased, what is left of two programs may be the
same; then their texts agree line by line but for these numbers.

* `Block.erase`, `Line.erase`: a program without what settings give it;
* `Form`, `Block.form?`: the blocks in which settings show, by their form;
* `lineNumber`, `lineForm`: number and form of a line, as they are read;
* `Alike`: lines that differ at most in what settings write;
* `alike_splitOn_write`: the lines of two programs that are the same when erased.
-/

namespace DrillPost.Gcode

open Number

/-! ## Erasure -/

/-- A block without the numbers that settings give it. -/
def Block.erase : Block → Block
  | .spindleStart _ => .spindleStart 0
  | .rapidHeight _ => .rapidHeight .zero
  | .drillCycle x y _ _ _ => .drillCycle x y .zero .zero .zero
  | b => b

/-- A line without the numbers that settings give it. -/
def Line.erase : Line → Line
  | .block b => .block b.erase
  | l => l

@[simp] theorem Line.weight_erase (l : Line) : l.erase.weight = l.weight := by
  cases l <;> rfl

/-! ## Forms -/

/-- The forms of the blocks in which settings show. -/
inductive Form
  /-- `G0 X.. Y..` -/
  | rapid
  /-- `G0 Z..` -/
  | height
  /-- `G98 G81 X.. Y.. Z.. R.. F..` -/
  | cycle
  /-- `X.. Y..` -/
  | move
  /-- `S.. M3 (Spindle Start)` -/
  | spindleStart
  deriving DecidableEq, Repr

/-- A move in the plane, which shows the number of places and no other setting. -/
def Form.IsMove (f : Form) : Prop := f = .rapid ∨ f = .move

/-- The form of a block in which settings show. -/
def Block.form? : Block → Option Form
  | .rapidTo .. => some .rapid
  | .rapidHeight _ => some .height
  | .drillCycle .. => some .cycle
  | .hole .. => some .move
  | .spindleStart _ => some .spindleStart
  | _ => none

@[simp] theorem Block.form?_erase (b : Block) : b.erase.form? = b.form? := by
  cases b <;> rfl

/-- Nothing is erased where settings show nothing but the number of places. -/
theorem Block.erase_eq_self {b : Block} (h : ∀ f, b.form? = some f → f.IsMove) : b.erase = b := by
  cases b with
  | spindleStart speed =>
    rcases h _ rfl with h | h <;> cases h
  | rapidHeight z =>
    rcases h _ rfl with h | h <;> cases h
  | drillCycle x y bottom retract feed =>
    rcases h _ rfl with h | h <;> cases h
  | _ => rfl

/-- Such blocks are equal when they are the same when erased. -/
theorem Block.eq_of_erase_eq {b c : Block} (h : b.erase = c.erase)
    (hb : ∀ f, b.form? = some f → f.IsMove) : b = c := by
  have form : b.form? = c.form? := by rw [← b.form?_erase, h, c.form?_erase]
  rw [← erase_eq_self hb, h, erase_eq_self fun f hf => hb f (form.trans hf)]

/-- Where no settings show, the number of places does not matter. -/
theorem Block.text_of_form_eq_none {b : Block} (h : b.form? = none) (precision other : Option Nat) :
    b.text precision = b.text other := by
  cases b with
  | rapidTo | rapidHeight | drillCycle | hole | spindleStart => cases h
  | _ => rfl

/-! ## Lines as they are read -/

/-- The digits of the number of a line; none when the line does not begin with `N`. -/
def lineNumber : Text → Option Text
  | 'N' :: rest => some (rest.takeWhile isDigit)
  | _ => none

/-- The form of a row of words in which settings show. -/
def formOf : List Text → Option Form
  | [['G', '0'], 'X' :: _, 'Y' :: _] => some .rapid
  | [['G', '0'], 'Z' :: _] => some .height
  | [['G', '9', '8'], ['G', '8', '1'], 'X' :: _, 'Y' :: _, 'Z' :: _, 'R' :: _, 'F' :: _] =>
    some .cycle
  | ['X' :: _, 'Y' :: _] => some .move
  | ['S' :: _, ['M', '3'], ['(', 'S', 'p', 'i', 'n', 'd', 'l', 'e'],
      ['S', 't', 'a', 'r', 't', ')']] => some .spindleStart
  | _ => none

/-- The form of a line in which settings show. -/
def lineForm (line : Text) : Option Form := (wordsBehindNumber line).bind formOf

/-- The form of a block is read from its words. -/
theorem formOf_words (precision : Option Nat) (b : Block) :
    formOf (b.words precision) = b.form? := by
  cases b with
  | unit u => cases u <;> rfl
  | _ => rfl

variable (precision : Option Nat) (n : Nat)

theorem lineNumber_text_block (b : Block) :
    lineNumber ((Line.block b).text precision n) = some (digits (numberStep * (n + 1))) := by
  have number : ∀ c ∈ digits (numberStep * (n + 1)), isDigit c = true :=
    fun _ => isDigit_of_mem_digits
  simp only [Line.text, List.cons_append, lineNumber]
  rw [List.takeWhile_append_of_pos number]
  simp [isDigit]

theorem lineForm_text (l : Line) :
    lineForm (l.text precision n) = l.block?.bind Block.form? := by
  rw [lineForm, l.wordsBehindNumber_text, Option.bind_map]
  congr 1
  funext b
  exact formOf_words precision b

/-! ## Lines that differ in what settings write -/

/-- Lines with the same number and the same form. They are equal where no settings show in them, and
so are moves in the plane when their coordinates have the same number of places. -/
structure Alike (precision precision' : Option Nat) (line line' : Text) : Prop where
  number : lineNumber line = lineNumber line'
  form : lineForm line = lineForm line'
  same : lineForm line = none → line = line'
  move : precision = precision' → (∀ f, lineForm line = some f → f.IsMove) → line = line'

variable {precision' : Option Nat}

theorem Alike.refl (line : Text) : Alike precision precision' line line :=
  ⟨rfl, rfl, fun _ => rfl, fun _ _ => rfl⟩

/-- Blocks that are the same when erased are written alike. -/
theorem alike_text_block {b c : Block} (h : b.erase = c.erase) :
    Alike precision precision' ((Line.block b).text precision n)
      ((Line.block c).text precision' n) where
  number := by rw [lineNumber_text_block, lineNumber_text_block]
  form := by
    rw [lineForm_text, lineForm_text]
    change b.form? = c.form?
    rw [← b.form?_erase, h, c.form?_erase]
  same := by
    intro none
    rw [lineForm_text] at none
    change b.form? = _ at none
    have same : b = c := Block.eq_of_erase_eq h fun f hf => by
      rw [none] at hf
      cases hf
    simp only [← same, Line.text, Block.text_of_form_eq_none none precision precision']
  move := by
    rintro rfl moves
    rw [lineForm_text] at moves
    rw [Block.eq_of_erase_eq h moves]

/-- **Lines of two programs** that are the same when erased are written alike. -/
theorem alike_text {l m : Line} (h : l.erase = m.erase) :
    Alike precision precision' (l.text precision n) (m.text precision' n) := by
  cases l with
  | block b =>
    cases m with
    | block c => exact alike_text_block precision n (Line.block.inj h)
    | empty | remark r => cases h
  | empty =>
    cases m with
    | empty => exact .refl precision []
    | block c | remark r => cases h
  | remark r =>
    cases m with
    | remark r' =>
      obtain rfl : r = r' := Line.remark.inj h
      exact .refl precision r.text
    | block c | empty => cases h

/-- **Programs that are the same when erased** are written alike, line by line. -/
theorem alike_splitOn_write {p q : Program} (hp : ∀ l ∈ p, l.Flat) (hq : ∀ l ∈ q, l.Flat)
    (h : p.map Line.erase = q.map Line.erase) :
    List.Forall₂ (Alike precision precision') (splitOn '\n' (write precision n p))
      (splitOn '\n' (write precision' n q)) := by
  induction p generalizing n q with
  | nil =>
    obtain rfl : q = [] := List.map_eq_nil_iff.1 h.symm
    exact .cons (.refl precision []) .nil
  | cons l p ih =>
    cases q with
    | nil => cases h
    | cons m q =>
      obtain ⟨first, rest⟩ := List.cons.inj h
      obtain ⟨hl, hp⟩ := List.forall_mem_cons.1 hp
      obtain ⟨hm, hq⟩ := List.forall_mem_cons.1 hq
      have weight : l.weight = m.weight := by rw [← l.weight_erase, first, m.weight_erase]
      rw [write_cons, write_cons, splitOn_append_cons (l.lineFeed_notMem_text precision n hl),
        splitOn_append_cons (m.lineFeed_notMem_text precision' n hm), weight]
      exact .cons (alike_text precision n first) (ih _ hp hq rest)

end DrillPost.Gcode
