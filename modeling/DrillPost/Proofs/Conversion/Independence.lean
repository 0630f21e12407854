import DrillPost.Proofs.Conversion.Reading
import DrillPost.Proofs.Conversion.Strictness
import DrillPost.Proofs.Gcode.Erasure

/-!
# What settings have an influence on

Two conversions of a document with different settings take the same actions at the same lines. So
they count, warn and tell the same, and write the same blocks and remarks in the same order; the
settings only show in the numbers of some blocks. Whether a conversion is strict does not show at
all.

* `Result.erase`, `step_erase`, `run_erase`: what is left of a run without what settings write does
  not depend on them;
* `DifferInNumbers`: how two conversions of a document compare;
* `differInNumbers_convertText`: the comparison for all settings.
-/

namespace DrillPost.Conversion

open Gcode

/-! ## Runs with different settings -/

/-- What has come of some lines, without the numbers that settings give. -/
def Result.erase (r : Result) : Result := { r with program := r.program.map Line.erase }

variable (d e : Drilling)

/-- What an action adds to the program is the same but for the numbers. -/
theorem program_erase (state : State) (line : Text) (a : Excellon.Action) :
    (state.program d line a).map Line.erase = (state.program e line a).map Line.erase := by
  cases a with
  | drill x y =>
    cases due : state.cycleDue with
    | true =>
      rw [program_drill_of_cycleDue d line x y due, program_drill_of_cycleDue e line x y due]
      rfl
    | false =>
      rw [program_drill_of_not_cycleDue d line x y due,
        program_drill_of_not_cycleDue e line x y due]
  | _ => rfl

/-- One line. -/
theorem step_erase (p : Progress) (line : Text) :
    (step d p line).erase = (step e p line).erase := by
  simp only [step, Result.erase]
  rw [program_erase d e]

/-- **Runs with different settings** are the same but for the numbers: they end with the same state
and counts, and a listener hears the same. -/
theorem run_erase (p : Progress) (ls : List Text) : (run d p ls).erase = (run e p ls).erase := by
  induction ls generalizing p with
  | nil => rfl
  | cons line ls ih =>
    obtain ⟨progress, program, events⟩ := Result.mk.inj (step_erase d e p line)
    obtain ⟨last, programs, heard⟩ := Result.mk.inj (ih (step e p line).progress)
    simp only [run_cons, Result.erase, List.map_append]
    rw [progress, program, events, last, programs, heard]

/-! ## Conversions with different settings -/

variable (s t : Settings) (document : Text)

/-- How the conversions of a document with different settings compare. -/
structure DifferInNumbers : Prop where
  /-- They end with the same counts and warnings. -/
  summary : (convertText s document).2 = (convertText t document).2
  /-- A listener hears the same. -/
  events : (convertLines s (Text.lines document)).events =
    (convertLines t (Text.lines document)).events
  /-- They are in the same state behind every line. -/
  states : ∀ before, before <+: Text.lines document →
    (convertLines s before).progress.state = (convertLines t before).progress.state
  /-- They have the same number of lines, which differ at most in what settings write. -/
  lines : List.Forall₂ (Alike s.output.precision t.output.precision)
    (splitOn '\n' (convertText s document).1) (splitOn '\n' (convertText t document).1)

/-- **Settings have an influence on numbers only.** With any two settings, the conversions of a
document end with the same summary, go through the same states and cause the same events. Their
programs have the same lines with the same block numbers, but for the coordinates, the heights, the
feed rate and the speed in them; with the same number of places, the moves are the same too. Whether
a conversion is strict has no influence on what comes of a document or of a stream. -/
theorem differInNumbers_convertText :
    DifferInNumbers s t document ∧
      (∀ strict, convertText (s.withStrict strict) document = convertText s document) ∧
      ∀ strict path stream,
        convertStream (s.withStrict strict) path stream = convertStream s path stream := by
  refine ⟨?_, fun _ => rfl, fun _ _ _ => rfl⟩
  have runs (ls : List Text) := Result.mk.inj (run_erase s.drilling t.drilling {} ls)
  obtain ⟨progress, program, events⟩ := runs (Text.lines document)
  have flat : ∀ line ∈ Text.lines document, '\n' ∉ line := fun _ => Text.notMem_of_mem_lines
  exact
    { summary := congrArg Progress.summary progress
      events
      states := fun before _ => congrArg Progress.state (runs before).1
      lines := alike_splitOn_write _ _ (flat_convertLines s flat) (flat_convertLines t flat)
        program }

end DrillPost.Conversion
