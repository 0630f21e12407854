import DrillPost.Proofs.Conversion.Reading
import DrillPost.Proofs.Conversion.Warnings
import DrillPost.Proofs.Gcode.Diagnostics

/-!
# Three records of the rejected lines

A line that cannot be converted is recorded three times: as a warning in the summary, as a remark in
the program, and as an event that a listener hears. The three records are the same list, although
the remarks quote whatever stands in the line. And no line is left out of them without a trace: a
line that adds nothing to the program is blank, begins with a percent sign, or gives coordinates
inside the header.

* `rejections_convertLines`: the rejected lines that the remarks of a program quote;
* `OneRecord`: the three records agree;
* `oneRecord_convertText`: the records of a document, and the lines without a trace.
-/

namespace DrillPost.Conversion

open Excellon Gcode

/-- What a warning and a remark both say of a line. -/
def rejection (w : Warning) : Anomaly × Text := (w.anomaly, w.line)

theorem filterMap_rejection?_program (d : Drilling) (state : State) (n : Nat) (line : Text)
    (a : Action) :
    (state.program d line a).filterMap Line.rejection? =
      ((warningOf n line a).map rejection).toList := by
  cases a with
  | drill x y => cases h : state.cycleDue <;> simp [State.program, h, warningOf, Line.rejection?]
  | _ => rfl

variable (s : Settings)

/-- The rejected lines that the remarks of a program quote are those of the warnings. -/
theorem rejections_convertLines (ls : List Text) :
    (convertLines s ls).program.filterMap Line.rejection? =
      (convertLines s ls).progress.tally.warnings.toList.map rejection := by
  induction ls using List.reverseRecOn with
  | nil => rfl
  | append_singleton ls line ih =>
    rw [convertLines_concat]
    simp only [List.filterMap_append, ih, warnings_next, List.map_append,
      filterMap_rejection?_program _ _ ((convertLines s ls).progress.tally.linesRead + 1)]
    rw [Option.toList_map]

/-- The three records of the rejected lines among some lines: the warnings in the summary go from
line to line and quote the lines that they name, the remarks in the program say the same as the
warnings, and the warnings that were heard are those of the summary. -/
structure OneRecord (ls : List Text) (gcode : Text) (summary : Summary) (events : List Event) :
    Prop where
  ordered : summary.warnings.toList.Pairwise (·.lineNumber < ·.lineNumber)
  numbered : ∀ w ∈ summary.warnings.toList, 1 ≤ w.lineNumber ∧ w.lineNumber ≤ summary.linesRead
  quoted : ∀ w ∈ summary.warnings.toList, (ls[w.lineNumber - 1]?).map Text.trim = some w.line
  remarks : diagnostics gcode = summary.warnings.toList.map rejection
  heard : events.filterMap Event.warning? = summary.warnings.toList

/-- **Warnings and remarks are the same information**, complete and in order, and so are the
warnings that a listener hears. The program is put together from what its lines add, and a line adds
nothing exactly when it is blank, begins with a percent sign, or begins with `X` or `Y` inside the
header; for a line that begins with the letter of a tool always has a first field. -/
theorem oneRecord_convertText (document : Text) :
    OneRecord (Text.lines document) (convertText s document).1 (convertText s document).2
        (convertLines s (Text.lines document)).events ∧
      (convertText s document).1 = (eachLine (lineText s) [] (Text.lines document)).flatten ∧
      ∀ before line after, Text.lines document = before ++ line :: after →
        (lineText s before line = [] ↔ PassedOver before line) ∧
          ((Text.trim line).head? = some 'T' →
            ∃ first second, Field.pair (Text.normalize line) = some (first, second)) := by
  have flat : ∀ l ∈ (convertLines s (Text.lines document)).program, l.Flat :=
    flat_convertLines s fun _ => Text.notMem_of_mem_lines
  refine ⟨⟨?_, fun w hw => ?_, fun w hw => ?_, ?_, ?_⟩, text_convertLines s _,
    fun before line after _ => ⟨lineText_eq_nil_iff s, fun tool => ?_⟩⟩
  · exact pairwise_warnings_convertLines s _
  · obtain ⟨positive, bounded, -⟩ := located_convertLines s hw
    exact ⟨positive, bounded.trans_eq (linesRead_convertLines s _).symm⟩
  · exact (located_convertLines s hw).2.2
  · exact (diagnostics_write _ 0 flat).trans (rejections_convertLines s _)
  · exact warnings_events s _
  · refine exists_pair_normalize fun blank => ?_
    simp [blank] at tool

end DrillPost.Conversion
