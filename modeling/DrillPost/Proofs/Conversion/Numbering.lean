import DrillPost.Proofs.Conversion.Joined
import DrillPost.Proofs.Conversion.Reading
import DrillPost.Proofs.Conversion.Streams
import DrillPost.Proofs.Gcode.Numbering

/-!
# The line numbers of converted documents

The blocks of a conversion are numbered from its first line to its last, and the summary counts
them. A line of a document adds six blocks at most, so the numbers stay below sixty times the number
of lines.

* `blocks_run_le`: how many blocks lines add;
* `NumberedInOrder`: the law of line numbers;
* `numberedInOrder_conversion`: documents and streams.
-/

namespace DrillPost.Conversion

open Excellon Gcode

theorem State.blocksOf_le (s : State) (a : Action) : s.blocksOf a ≤ 6 := by
  cases a with
  | drill x y => cases h : s.cycleDue <;> simp [blocksOf, h]
  | _ => simp [blocksOf]

/-- A line adds six blocks at most. -/
theorem blocks_run_le (d : Drilling) (p : Progress) (ls : List Text) :
    (run d p ls).progress.state.blocks ≤ p.state.blocks + 6 * ls.length := by
  induction ls generalizing p with
  | nil => simp
  | cons l ls ih =>
    have first : (step d p l).progress.state.blocks ≤ p.state.blocks + 6 := by
      have := p.state.blocksOf_le (Action.ofLine p.state.inHeader l)
      simp only [step, State.blocks_next]
      omega
    have rest := ih (step d p l).progress
    simp only [run_cons, List.length_cons]
    omega

/-- The law of line numbers, for what a conversion of so many lines gives: the numbered lines are as
many as the summary says, and their numbers go on from the first one without a gap; the other lines
are asides; and no number is greater than sixty times the number of lines. -/
structure NumberedInOrder (lineCount : Nat) (converted : Text × Summary) : Prop where
  lines : NumberedFrom 0 converted.2.gcodeLines (splitOn '\n' converted.1)
  bound : 10 * converted.2.gcodeLines ≤ 60 * lineCount

variable (s : Settings)

theorem numberedInOrder_convertText (document : Text) :
    NumberedInOrder (Text.lines document).length (convertText s document) where
  lines := by
    have counted : (convertText s document).2.gcodeLines =
        blockCount (convertLines s (Text.lines document)).program :=
      (blocks_run s.drilling {} _).trans (Nat.zero_add _)
    rw [counted]
    exact numberedFrom_splitOn_write _ 0 (flat_convertLines s fun _ => Text.notMem_of_mem_lines)
  bound := by
    have few : (convertText s document).2.gcodeLines ≤ 0 + 6 * (Text.lines document).length :=
      blocks_run_le s.drilling {} _
    omega

/-- **Line numbers.** Whatever the settings are, the numbered lines of the program for a document
begin with `N10`, `N20`, `N30` and so on, as many as the summary counts, and every other line is
empty or begins with a parenthesis or a semicolon. The same holds of the program for a stream that
does not fail. -/
theorem numberedInOrder_conversion (document : Text) (path : Path) (octets : List UInt8) :
    NumberedInOrder (Text.lines document).length (convertText s document) ∧
      ∃ converted, (convertStream s path { octets }).result = .ok converted ∧
        NumberedInOrder (Stream.linesOf octets).length converted := by
  refine ⟨numberedInOrder_convertText s document, _,
    congrArg Outcome.result (convertStream_of_octets s path octets), ?_⟩
  have counts : (Stream.linesOf octets).length =
      (Text.lines (Utf8.decodeLossy octets)).length := by
    simpa only [List.length_map] using congrArg List.length (trim_linesOf octets)
  rw [counts]
  exact numberedInOrder_convertText s _

end DrillPost.Conversion
