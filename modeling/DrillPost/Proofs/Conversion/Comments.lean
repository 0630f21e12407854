import DrillPost.Proofs.Conversion.Reading
import DrillPost.Proofs.Gcode.Comments

/-!
# The comments of converted documents

What a conversion cannot use of a document it quotes in comments. Behind a semicolon everything is a
comment. In parentheses a line with an unknown machine code or a malformed number is quoted as it
is, and so are the texts of a tool's definition: a closing parenthesis in them ends the comment, and
the controller acts on what follows it.

* `quotation`: the text of a line that the program quotes in parentheses;
* `commentsOnly_convertText_iff`: the documents whose quotations stay in comments;
* `not_commentsOnly_convertText`: a document of each kind whose quotations do not.
-/

namespace DrillPost.Conversion

open Excellon Gcode

variable (s : Settings)

/-- The text of a line that the program quotes in parentheses, for what the line does. -/
def quotation (line : Text) : Action → Option Text
  | .defineTool number diameter => (Remark.toolDefinition number diameter).quotation
  | .reject anomaly => (Remark.rejected anomaly line).quotation
  | _ => none

theorem exists_quotation_program_iff (d : Drilling) (state : State) (line : Text) (a : Action)
    {t : Text} :
    (∃ l ∈ state.program d line a, t ∈ l.quotation) ↔ t ∈ quotation line a := by
  cases a with
  | drill x y =>
    cases h : state.cycleDue <;> simp [State.program, h, quotation, Line.quotation]
  | _ => simp [State.program, quotation, Line.quotation, Remark.quotation]

theorem commentsOnly_iff_program (document : Text) :
    CommentsOnly (convertText s document).1 ↔
      ∀ l ∈ (convertLines s (Text.lines document)).program, ∀ t ∈ l.quotation, Enclosed t :=
  commentsOnly_write_iff s.output.precision 0
    (flat_convertLines s fun _ => Text.notMem_of_mem_lines)

/-- **The quotations of a conversion stay in comments**, so that the lines without a number are
nothing but comments, exactly when each of them is enclosed: a closing parenthesis in it is followed
by another comment, with nothing but blanks between them. -/
theorem commentsOnly_convertText_iff (document : Text) :
    CommentsOnly (convertText s document).1 ↔
      ∀ before line after, Text.lines document = before ++ line :: after →
        ∀ t ∈ quotation (Text.trim line) (actionAt before line), Enclosed t := by
  rw [commentsOnly_iff_program]
  constructor
  · intro h before line after split t ht
    obtain ⟨l, hl, hq⟩ := (exists_quotation_program_iff s.drilling
      (convertLines s before).progress.state _ _).2 ht
    exact h l ((mem_program_convertLines_iff s _).2 ⟨before, line, after, split, hl⟩) t hq
  · intro h l hl t ht
    obtain ⟨before, line, after, split, hp⟩ := (mem_program_convertLines_iff s _).1 hl
    exact h before line after split t
      ((exists_quotation_program_iff s.drilling _ _ _).1 ⟨l, hp, ht⟩)

/-- A closing parenthesis in a line with an unknown machine code, in one with a malformed number and
in the definition of a tool: what follows it is no comment. -/
theorem not_commentsOnly_convertText :
    ¬ CommentsOnly (convertText {} "M2)G0X9\n".toList).1 ∧
      ¬ CommentsOnly (convertText {} "X1)G0Z-9\n".toList).1 ∧
      ¬ CommentsOnly (convertText {} "M48\nT1)M3\n".toList).1 := by
  decide +kernel

end DrillPost.Conversion
