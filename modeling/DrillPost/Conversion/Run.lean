import DrillPost.Conversion.Summary
import DrillPost.Text.Pieces
import DrillPost.Threaded

/-!
# Runs of the converter

The converter reads lines one at a time. A run over some lines gives the progress at its end, the
program it adds and the events it causes; a run over a list of lines followed by another is the one
run after the other (`run_append`).

* `Progress`: state and counts;
* `step`, `run`: one line, and a list of lines;
* `convertText`: a whole document.
-/

namespace DrillPost.Conversion

open Excellon

structure Progress where
  state : State := {}
  tally : Tally := {}
  deriving DecidableEq, Repr

/-- What has come of some lines: the progress after them, what they add to the program, and what a
listener hears of them. -/
structure Result where
  progress : Progress
  program : Gcode.Program
  events : List Event
  deriving DecidableEq, Repr

def step (d : Drilling) : Progress → Text → Result
  | ⟨state, tally⟩, line =>
    let action := Action.ofLine state.inHeader line
    let trimmed := Text.trim line
    let tally := tally.next trimmed action
    { progress := ⟨state.next action, tally⟩
      program := state.program d trimmed action
      events := (Event.ofAction tally.linesRead trimmed action).toList }

def run (d : Drilling) (p : Progress) (lines : List Text) : Result :=
  let (last, outputs) := threaded (fun q line =>
    let r := step d q line
    (r.progress, r.program, r.events)) p lines
  ⟨last, outputs.flatMap (·.1), outputs.flatMap (·.2)⟩

@[simp] theorem run_nil (d : Drilling) (p : Progress) : run d p [] = ⟨p, [], []⟩ := rfl

theorem run_cons (d : Drilling) (p : Progress) (l : Text) (ls : List Text) :
    run d p (l :: ls) =
      let first := step d p l
      let rest := run d first.progress ls
      ⟨rest.progress, first.program ++ rest.program, first.events ++ rest.events⟩ := by
  simp [run, threaded_cons]

/-- A run over a list of lines followed by another list is the one run after the other. -/
theorem run_append (d : Drilling) (p : Progress) (ls ms : List Text) :
    run d p (ls ++ ms) =
      let first := run d p ls
      let second := run d first.progress ms
      ⟨second.progress, first.program ++ second.program, first.events ++ second.events⟩ := by
  simp [run, threaded_append]

/-- The text of a program whose first block comes after those of a given progress. -/
def Result.text (o : Output) (before : Progress) (r : Result) : Text :=
  Gcode.write o.precision before.state.blocks r.program

def Progress.summary (p : Progress) : Summary :=
  { p.tally with gcodeLines := p.state.blocks }

def convertLines (s : Settings) (lines : List Text) : Result := run s.drilling {} lines

/-- The G-code for a document, and the summary of its conversion. -/
def convertText (s : Settings) (document : Text) : Text × Summary :=
  let r := convertLines s (Text.lines document)
  (r.text s.output {}, r.progress.summary)

end DrillPost.Conversion
