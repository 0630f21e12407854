import DrillPost.Proofs.Conversion.History
import DrillPost.Proofs.Gcode.Reading

/-!
# Converted documents read back

The remarks in a program quote lines of the drill file, which hold no line feed. So what is read of
a converted document are the blocks that its lines were converted to.

* `flat_convertLines`: the quotations of a program hold no line feed;
* `readBlocks_convertText`: what is read of a converted document;
* `program_drill_of_cycleDue`, `program_drill_of_not_cycleDue`: the two forms of a hole;
* `exists_line_of_row`: the line that a row of words comes from.
-/

namespace DrillPost.Conversion

open Excellon Gcode

variable (s : Settings)

theorem flat_program (d : Drilling) (state : State) {line : Text} (hl : '\n' ∉ line) (a : Action)
    (ha : ∀ number diameter, a = .defineTool number diameter → '\n' ∉ number ∧ '\n' ∉ diameter) :
    ∀ l ∈ state.program d line a, l.Flat := by
  cases a with
  | idle | closeHeader | openHeader | setUnit _ | selectTool _ | endProgram =>
    simp [State.program, Line.Flat, Remark.Flat]
  | defineTool number diameter => simpa [State.program, Line.Flat, Remark.Flat] using ha _ _ rfl
  | drill x y => cases h : state.cycleDue <;> simp [State.program, h, Line.Flat]
  | reject anomaly => simpa [State.program, Line.Flat, Remark.Flat] using hl

/-- The quotations of a program hold no line feed. -/
theorem flat_convertLines {ls : List Text} (h : ∀ line ∈ ls, '\n' ∉ line) :
    ∀ l ∈ (convertLines s ls).program, l.Flat := by
  intro l hl
  obtain ⟨before, line, after, rfl, hp⟩ := (mem_program_convertLines_iff s _).1 hl
  have hline : '\n' ∉ line := h line (by simp)
  have quoted := flat_program s.drilling (convertLines s before).progress.state
    (fun hm => hline (Text.mem_of_mem_trim hm)) (actionAt before line)
    fun _ _ => Action.lineFeed_notMem_of_ofLine_eq_defineTool hline
  exact quoted l hp

/-- **What is read of a converted document** are the words of its blocks. -/
theorem readBlocks_convertText (document : Text) :
    readBlocks (convertText s document).1 =
      rowsOf s.output.precision (convertLines s (Text.lines document)).program :=
  readBlocks_write _ _ (flat_convertLines s fun _ hl => Text.notMem_of_mem_lines hl)

theorem readBlocks_convertText_of_blocks {document : Text} {bs : List Block} {b : Block}
    (h : blocks (convertLines s (Text.lines document)).program = bs ++ [b]) :
    readBlocks (convertText s document).1 =
      bs.map (Block.words s.output.precision) ++ [b.words s.output.precision] := by
  rw [readBlocks_convertText, rowsOf, h, List.map_append]
  rfl

/-! ## The blocks of a line -/

section

variable (d : Drilling) {state : State} (line : Text) (x y : Int)

/-- A hole that starts a drilling cycle. -/
theorem program_drill_of_cycleDue (h : state.cycleDue = true) :
    state.program d line (.drill x y) =
      [.block (.rapidTo x y), .block (.rapidHeight d.safeHeight),
        .block (.rapidHeight d.feedHeight),
        .block (.drillCycle x y d.bottomHeight d.feedHeight d.feedRate)] := by
  simp [State.program, h]

/-- One more hole of the drilling cycle. -/
theorem program_drill_of_not_cycleDue (h : state.cycleDue = false) :
    state.program d line (.drill x y) = [.block (.hole x y)] := by
  simp [State.program, h]

end

/-! ## The rows of a line -/

/-- The words of the blocks that a line adds behind others. -/
def lineRows (earlier : List Text) (line : Text) : List (List Text) :=
  rowsOf s.output.precision ((convertLines s earlier).progress.state.program s.drilling
    (Text.trim line) (actionAt earlier line))

theorem rowsOf_convertLines_concat (ls : List Text) (line : Text) :
    rowsOf s.output.precision (convertLines s (ls ++ [line])).program =
      rowsOf s.output.precision (convertLines s ls).program ++ lineRows s ls line := by
  rw [convertLines_concat]
  exact rowsOf_append _ _ _

/-- **Every row comes from a line**, with the rows of the earlier lines in front of those of this
line. -/
theorem exists_line_of_row {ls : List Text} {front back : List (List Text)} {row : List Text}
    (h : rowsOf s.output.precision (convertLines s ls).program = front ++ row :: back) :
    ∃ before line after mid rest, ls = before ++ line :: after ∧
      front = rowsOf s.output.precision (convertLines s before).program ++ mid ∧
      lineRows s before line = mid ++ row :: rest := by
  induction ls using List.reverseRecOn generalizing back with
  | nil => simp [convertLines, rowsOf] at h
  | append_singleton ls line ih =>
    rw [rowsOf_convertLines_concat, List.append_eq_append_iff] at h
    rcases h with ⟨mid, hf, hm⟩ | ⟨rest, hl, hm⟩
    · exact ⟨ls, line, [], mid, back, rfl, hf, hm⟩
    · cases rest with
      | nil =>
        rw [List.append_nil] at hl
        exact ⟨ls, line, [], [], back, rfl, by rw [hl, List.append_nil], hm.symm⟩
      | cons r rest =>
        obtain ⟨rfl, -⟩ := List.cons.inj hm
        obtain ⟨before, l, after, mid, more, hls, hf, hr⟩ := ih hl
        exact ⟨before, l, after ++ [line], mid, more, by simp [hls], hf, hr⟩

end DrillPost.Conversion
