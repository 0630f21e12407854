import DrillPost.Proofs.Conversion.History

/-!
# Converted texts joined

Block numbers run on from one line of a document to the next, so the text of a conversion can be
written line by line: what a line adds hangs on the earlier lines, and stays as it is whatever lines
follow.

* `blocks_run`, `linesRead_run`: the state counts the blocks of a program, and the tally the lines;
* `text_run_append`: the text of a run over a list of lines followed by another;
* `lineText`: the text that a line adds behind others;
* `convertText_eq_append`: the converted text around a line of the document.
-/

namespace DrillPost.Conversion

section

variable (d : Drilling) (o : Output) (p : Progress)

/-- The state counts the blocks of a program. -/
theorem blocks_run (ls : List Text) :
    (run d p ls).progress.state.blocks =
      p.state.blocks + Gcode.blockCount (run d p ls).program := by
  induction ls generalizing p with
  | nil => simp
  | cons l ls ih =>
    have first : (step d p l).progress.state.blocks =
        p.state.blocks + Gcode.blockCount (step d p l).program := by
      simp [step, State.blockCount_program]
    simp only [run_cons]
    rw [ih, first, Gcode.blockCount_append, Nat.add_assoc]

theorem linesRead_run (ls : List Text) :
    (run d p ls).progress.tally.linesRead = p.tally.linesRead + ls.length := by
  induction ls generalizing p with
  | nil => rfl
  | cons l ls ih =>
    have first : (step d p l).progress.tally.linesRead = p.tally.linesRead + 1 := by simp [step]
    simp only [run_cons]
    rw [ih, first, List.length_cons, Nat.add_assoc, Nat.add_comm 1]

/-- **Texts are joined** where runs are. -/
theorem text_run_append (ls ms : List Text) :
    (run d p (ls ++ ms)).text o p =
      (run d p ls).text o p ++
        (run d (run d p ls).progress ms).text o (run d p ls).progress := by
  rw [run_append]
  simp only [Result.text]
  rw [Gcode.write_append, blocks_run]

theorem run_singleton (l : Text) : run d p [l] = step d p l := by
  simp [run_cons]

end

variable (s : Settings)

/-- The text that a line adds behind others. -/
def lineText (earlier : List Text) (line : Text) : Text :=
  let p := (convertLines s earlier).progress
  (step s.drilling p line).text s.output p

/-- A line adds the program of what it does behind the others. -/
theorem lineText_eq_write (earlier : List Text) (line : Text) :
    lineText s earlier line =
      Gcode.write s.output.precision (convertLines s earlier).progress.state.blocks
        ((convertLines s earlier).progress.state.program s.drilling (Text.trim line)
          (actionAt earlier line)) := by
  simp only [lineText, Result.text, step, inHeader_convertLines, actionAt]

theorem text_convertLines_concat (ls : List Text) (line : Text) :
    (convertLines s (ls ++ [line])).text s.output {} =
      (convertLines s ls).text s.output {} ++ lineText s ls line := by
  simp only [convertLines, lineText]
  rw [text_run_append, run_singleton]

/-- The converted text around a line of the document. -/
theorem convertText_eq_append {document line : Text} {before after : List Text}
    (h : Text.lines document = before ++ line :: after) :
    (convertText s document).1 =
      (convertLines s before).text s.output {} ++ lineText s before line ++
        let p := (convertLines s (before ++ [line])).progress
        (run s.drilling p after).text s.output p := by
  have split : before ++ line :: after = before ++ [line] ++ after := by simp
  rw [← text_convertLines_concat]
  simp only [convertText, convertLines, h, split]
  exact text_run_append ..

end DrillPost.Conversion
