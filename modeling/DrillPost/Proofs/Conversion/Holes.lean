import DrillPost.Proofs.Conversion.Reading
import DrillPost.Proofs.Gcode.Coordinates

/-!
# Every hole is drilled once, in its place

The holes of a document are the coordinate pairs of its lines outside the header. Reading the
converted program gives these and no others, in the same order; nothing else in the program looks
like a hole.

* `holes_convertLines`: the holes among the blocks of a conversion, and their count;
* `holeTexts_readBlocks_convertText`: the holes that are read of a converted document.
-/

namespace DrillPost.Conversion

open Excellon Gcode Number

variable (s : Settings)

theorem hole?_blocks_program (d : Drilling) (state : State) (line : Text) (a : Action) :
    (blocks (state.program d line a)).filterMap Block.hole? =
      match a with
      | .drill x y => [(x, y)]
      | _ => [] := by
  cases a with
  | drill x y =>
    cases h : state.cycleDue with
    | true => rw [program_drill_of_cycleDue d line x y h]; rfl
    | false => rw [program_drill_of_not_cycleDue d line x y h]; rfl
  | _ => rfl

/-- Whether an action drills a hole. -/
def drills : Action → Bool
  | .drill .. => true
  | _ => false

theorem holes_next (t : Tally) (line : Text) (a : Action) :
    (t.next line a).holes = t.holes + (drills a).toNat := by
  cases a <;> rfl

/-- The holes among the blocks of a conversion are those of its lines, and they are counted. -/
theorem holes_convertLines (ls : List Text) :
    (blocks (convertLines s ls).program).filterMap Block.hole? = holesAfter [] ls ∧
      (convertLines s ls).progress.tally.holes = (holesAfter [] ls).length := by
  induction ls using List.reverseRecOn with
  | nil => exact ⟨rfl, rfl⟩
  | append_singleton ls line ih =>
    obtain ⟨positions, count⟩ := ih
    rw [convertLines_concat]
    simp only [blocks_append, holes_next]
    rw [List.filterMap_append, positions, hole?_blocks_program, holesAfter_concat,
      List.nil_append, List.length_append, ← count]
    cases h : holeAt ls line with
    | some hole => simp [actionAt_eq_drill_iff.2 h, drills]
    | none =>
      have other : ∀ x y, actionAt ls line ≠ .drill x y := fun x y ha => by
        rw [actionAt_eq_drill_iff.1 ha] at h
        cases h
      cases ha : actionAt ls line with
      | drill x y => exact absurd ha (other x y)
      | _ => simp [drills]

/-- **Reading the converted program gives the holes of the document**, each once and in order, and
the summary counts them. The settings write a coordinate as the double nearest to it, divided by a
hundred thousand and rounded again. -/
theorem holeTexts_readBlocks_convertText (document : Text) :
    (∃ divisor : Magnitude, divisor.value = 100000 ∧
      (readBlocks (convertText s document).1).filterMap holeTexts =
        (holesAfter [] (Text.lines document)).map fun (x, y) =>
          (coordinate s.output.precision ((Binary64.ofInt x).divBy divisor),
            coordinate s.output.precision ((Binary64.ofInt y).divBy divisor))) ∧
      (convertText s document).2.holes = (holesAfter [] (Text.lines document)).length := by
  obtain ⟨positions, count⟩ := holes_convertLines s (Text.lines document)
  refine ⟨⟨hundredThousand, value_hundredThousand, ?_⟩, count⟩
  rw [readBlocks_convertText, rowsOf, List.filterMap_map, ← positions, List.map_filterMap]
  exact List.filterMap_congr fun b _ => b.holeTexts_words s.output.precision

/-- A hole that starts the drilling cycle, and one more of this cycle. -/
example : (readBlocks (convertText {} "T1\nX1Y150000\nX-7Y2\n".toList).1).filterMap holeTexts =
    [("0.00001".toList, "1.5".toList), ("-0.00007".toList, "0.00002".toList)] := by
  decide +kernel

end DrillPost.Conversion
