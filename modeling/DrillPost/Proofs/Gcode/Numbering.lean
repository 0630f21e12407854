import DrillPost.Proofs.Gcode.Reading
import Mathlib

/-!
# The numbers of the lines of a program

The lines of a program that begin with `N` are its blocks, and their numbers are the multiples of
ten, one after the other. No remark can be taken for a block, for it begins with a parenthesis or a
semicolon and stays on its line.

* `isNumbered`: lines with a number;
* `NumberedFrom`: lines whose numbers go on from those of earlier blocks;
* `numberedFrom_splitOn_write`: the lines of a program;
* `counter`: the number of the last block, counted in 64 bits (`toNat_counter`).
-/

namespace DrillPost.Gcode

/-- Whether a line begins like one with a number. -/
def isNumbered (line : Text) : Bool := line.head? == some 'N'

theorem IsAside.isNumbered_eq_false {line : Text} (h : IsAside line) : isNumbered line = false := by
  rcases h with h | h | h <;> simp [isNumbered, h]

/-- What the line of a block begins with, when `n` blocks are in front of it. -/
def numberWord (n : Nat) : Text := 'N' :: Number.digits (10 * (n + 1)) ++ [' ']

theorem numberWord_prefix_text (precision : Option Nat) (n : Nat) (b : Block) :
    numberWord n <+: (Line.block b).text precision n :=
  ⟨b.text precision, by simp [numberWord, Line.text]⟩

/-- The lines with a number are so many, their numbers go on from those of `n` blocks without a gap,
and the lines between them are asides. -/
structure NumberedFrom (n count : Nat) (lines : List Text) : Prop where
  numbers : List.Forall₂ (fun k line => numberWord k <+: line) (List.range' n count)
    (lines.filter isNumbered)
  asides : ∀ line ∈ lines, isNumbered line = false → IsAside line

namespace NumberedFrom

variable {n count : Nat} {line : Text} {lines : List Text}

theorem cons_aside (hl : IsAside line) (h : NumberedFrom n count lines) :
    NumberedFrom n count (line :: lines) where
  numbers := by
    rw [List.filter_cons_of_neg (by simp [hl.isNumbered_eq_false])]
    exact h.numbers
  asides m hm hn := by
    rcases List.mem_cons.1 hm with rfl | hm
    · exact hl
    · exact h.asides m hm hn

theorem cons_number (hl : numberWord n <+: line) (h : NumberedFrom (n + 1) count lines) :
    NumberedFrom n (count + 1) (line :: lines) := by
  have numbered : isNumbered line = true := by
    obtain ⟨rest, rfl⟩ := hl
    rfl
  refine ⟨?_, fun m hm hn => ?_⟩
  · rw [List.filter_cons_of_pos numbered, List.range'_succ]
    exact .cons hl h.numbers
  · rcases List.mem_cons.1 hm with rfl | hm
    · rw [numbered] at hn
      cases hn
    · exact h.asides m hm hn

end NumberedFrom

/-- **The lines of a program**: its blocks have the numbers behind those of `n` earlier blocks, in
order, and all other lines are asides. -/
theorem numberedFrom_splitOn_write (precision : Option Nat) (n : Nat) {p : Program}
    (h : ∀ l ∈ p, l.Flat) :
    NumberedFrom n (blockCount p) (splitOn '\n' (write precision n p)) := by
  induction p generalizing n with
  | nil => exact .cons_aside (.inl rfl) ⟨.nil, by simp⟩
  | cons l p ih =>
    have hl : l.Flat := h l List.mem_cons_self
    have rest := ih (n + l.weight) fun m hm => h m (List.mem_cons_of_mem l hm)
    rw [write_cons, splitOn_append_cons (l.lineFeed_notMem_text precision n hl), blockCount_cons,
      Nat.add_comm]
    cases l with
    | empty => exact rest.cons_aside (.inl rfl)
    | remark r => exact rest.cons_aside r.isAside_text
    | block b => exact rest.cons_number (numberWord_prefix_text precision n b)

/-! ## The counter -/

theorem length_blocks (p : Program) : (blocks p).length = blockCount p := by
  induction p with
  | nil => rfl
  | cons l p ih =>
    cases l with
    | block b =>
      rw [blocks_cons_block, List.length_cons, ih, Nat.add_comm]
      rfl
    | empty | remark r => exact ih.trans (Nat.zero_add _).symm

/-- The number of the last block of a program, counted in 64 bits. -/
def counter (p : Program) : UInt64 :=
  (blocks p).foldl (fun n _ => n + 10) 0

theorem toNat_foldl_add (step : UInt64) (bs : List Block) (n : UInt64) :
    (bs.foldl (fun m _ => m + step) n).toNat = (n.toNat + step.toNat * bs.length) % 2 ^ 64 := by
  induction bs generalizing n with
  | nil => simp [Nat.mod_eq_of_lt n.toNat_lt]
  | cons b bs ih =>
    rw [List.foldl_cons, ih, UInt64.toNat_add, Nat.mod_add_mod, List.length_cons, Nat.mul_succ]
    congr 1
    omega

/-- The counter holds the number of the last block as long as 64 bits can hold it. -/
theorem toNat_counter {p : Program} (h : 10 * blockCount p < 2 ^ 64) :
    (counter p).toNat = 10 * blockCount p := by
  have step : (10 : UInt64).toNat = 10 := rfl
  rw [counter, toNat_foldl_add, length_blocks, step, UInt64.toNat_zero, Nat.zero_add,
    Nat.mod_eq_of_lt h]

end DrillPost.Gcode
