import DrillPost.Proofs.Conversion.Joined
import DrillPost.Proofs.Conversion.Reading

/-!
# Where drilling cycles start

A hole is written in two forms: as the four lines that take the drill over it and start the drilling
cycle, or as one bare line. The first hole behind each tool has the long form and no other hole has
it, whatever else stands between the tool and the hole.

* `Quiet`: lines that neither select a tool nor drill a hole (`cycleDue_append`);
* `cycleRows`, `moveRows`: the two forms of a hole (`numberedLines_cycleRows_ne`);
* `convertText_around_hole`: the form of a hole in a converted document.
-/

namespace DrillPost.Conversion

open Excellon Gcode

/-! ## Lines that change nothing -/

/-- None of some lines that follow others selects a tool or drills a hole: every one of them is
blank or read inside the header, or it is a machine code, a header mark or a rejected line. -/
def Quiet (earlier lines : List Text) : Prop :=
  ∀ front line rest, lines = front ++ line :: rest →
    toolAt (earlier ++ front) line = none ∧ holeAt (earlier ++ front) line = none

theorem quiet_concat {earlier lines : List Text} {line : Text}
    (h : Quiet earlier (lines ++ [line])) :
    Quiet earlier lines ∧ toolAt (earlier ++ lines) line = none ∧
      holeAt (earlier ++ lines) line = none := by
  refine ⟨fun front l rest hl => ?_, h lines line [] rfl⟩
  refine h front l (rest ++ [line]) ?_
  rw [hl, List.append_assoc, List.cons_append]

/-- Lines that neither select a tool nor drill a hole leave it to the lines before them whether a
cycle is due. -/
theorem cycleDue_append {earlier lines : List Text} (h : Quiet earlier lines) :
    CycleDue (earlier ++ lines) ↔ CycleDue earlier := by
  induction lines using List.reverseRecOn with
  | nil => rw [List.append_nil]
  | append_singleton lines line ih =>
    obtain ⟨quiet, noTool, noHole⟩ := quiet_concat h
    rw [← List.append_assoc, cycleDue_concat, noTool, noHole, ih quiet]
    simp

/-! ## The two forms of a hole -/

variable (s : Settings)

/-- The words of a hole that starts the drilling cycle. -/
def cycleRows (x y : Int) : List (List Text) :=
  let places := s.output.precision
  [['G', '0'] :: positionWords places x y,
    [['G', '0'], 'Z' :: coordinate places s.drilling.safeHeight],
    [['G', '0'], 'Z' :: coordinate places s.drilling.feedHeight],
    ['G', '9', '8'] :: ['G', '8', '1'] :: positionWords places x y ++
      ['Z' :: coordinate places s.drilling.bottomHeight,
        'R' :: coordinate places s.drilling.feedHeight,
        'F' :: feedRate s.drilling.feedRate]]

/-- The words of one more hole of the drilling cycle. -/
def moveRows (x y : Int) : List (List Text) := [positionWords s.output.precision x y]

/-- The two forms are different texts. -/
theorem numberedLines_cycleRows_ne (n : Nat) (x y : Int) :
    numberedLines n (cycleRows s x y) ≠ numberedLines n (moveRows s x y) := by
  intro h
  have cycle : readBlocks (numberedLines n (cycleRows s x y)) = cycleRows s x y :=
    readBlocks_numberedLines s.output.precision n
      [.rapidTo x y, .rapidHeight s.drilling.safeHeight, .rapidHeight s.drilling.feedHeight,
        .drillCycle x y s.drilling.bottomHeight s.drilling.feedHeight s.drilling.feedRate]
  have move : readBlocks (numberedLines n (moveRows s x y)) = moveRows s x y :=
    readBlocks_numberedLines s.output.precision n [.hole x y]
  have rows : cycleRows s x y = moveRows s x y := by rw [← cycle, h, move]
  have lengths : 4 = 1 := congrArg List.length rows
  omega

section

variable {before : List Text} {line : Text} {x y : Int}

theorem lineText_of_cycleDue (hole : holeAt before line = some (x, y)) (h : CycleDue before) :
    lineText s before line =
      numberedLines (convertLines s before).progress.state.blocks (cycleRows s x y) := by
  have due := (cycleDue_convertLines s before).2 h
  rw [lineText_eq_write, actionAt_eq_drill_iff.2 hole,
    program_drill_of_cycleDue s.drilling _ x y due]
  exact write_map_block s.output.precision _
    [.rapidTo x y, .rapidHeight s.drilling.safeHeight, .rapidHeight s.drilling.feedHeight,
      .drillCycle x y s.drilling.bottomHeight s.drilling.feedHeight s.drilling.feedRate]

theorem lineText_of_not_cycleDue (hole : holeAt before line = some (x, y))
    (h : ¬ CycleDue before) :
    lineText s before line =
      numberedLines (convertLines s before).progress.state.blocks (moveRows s x y) := by
  have due : (convertLines s before).progress.state.cycleDue = false :=
    Bool.eq_false_iff.2 fun hd => h ((cycleDue_convertLines s before).1 hd)
  rw [lineText_eq_write, actionAt_eq_drill_iff.2 hole,
    program_drill_of_not_cycleDue s.drilling _ x y due]
  exact write_map_block s.output.precision _ [.hole x y]

theorem lineText_eq_cycleRows_iff (hole : holeAt before line = some (x, y)) :
    lineText s before line =
        numberedLines (convertLines s before).progress.state.blocks (cycleRows s x y) ↔
      CycleDue before := by
  refine ⟨fun h => by_contra fun hn => ?_, lineText_of_cycleDue s hole⟩
  rw [lineText_of_not_cycleDue s hole hn] at h
  exact numberedLines_cycleRows_ne s _ x y h.symm

theorem lineText_eq_moveRows_iff (hole : holeAt before line = some (x, y)) :
    lineText s before line =
        numberedLines (convertLines s before).progress.state.blocks (moveRows s x y) ↔
      ¬ CycleDue before := by
  refine ⟨fun h hd => ?_, lineText_of_not_cycleDue s hole⟩
  rw [lineText_of_cycleDue s hole hd] at h
  exact numberedLines_cycleRows_ne s _ x y h

end

/-- **The form of a hole in a converted document.** It starts a drilling cycle when a tool was
selected and there was no hole since, and is a bare line when not; and lines in front of it that
neither select a tool nor drill a hole have no part in this, whatever they are. -/
theorem convertText_around_hole {document line : Text} {before after : List Text} {x y : Int}
    (hd : Text.lines document = before ++ line :: after)
    (hole : holeAt before line = some (x, y)) :
    let first := (convertLines s before).progress
    let last := (convertLines s (before ++ [line])).progress
    (convertText s document).1 =
        (convertLines s before).text s.output {} ++ lineText s before line ++
          (run s.drilling last after).text s.output last ∧
      (lineText s before line = numberedLines first.state.blocks (cycleRows s x y) ↔
        CycleDue before) ∧
      (lineText s before line = numberedLines first.state.blocks (moveRows s x y) ↔
        ¬ CycleDue before) ∧
      ∀ earlier quiet, before = earlier ++ quiet → Quiet earlier quiet →
        (lineText s before line = numberedLines first.state.blocks (cycleRows s x y) ↔
          CycleDue earlier) := by
  refine ⟨convertText_eq_append s hd, lineText_eq_cycleRows_iff s hole,
    lineText_eq_moveRows_iff s hole, fun earlier quiet hb hq => ?_⟩
  rw [lineText_eq_cycleRows_iff s hole, hb, cycleDue_append hq]

/-- The first hole behind a tool starts a drilling cycle, with a rejected tool in between. -/
theorem lineText_first_hole :
    let before := ["T1".toList, "T".toList]
    Text.lines "T1\nT\nX1Y2\n".toList = before ++ "X1Y2".toList :: [] ∧
      holeAt before "X1Y2".toList = some (1, 2) ∧ Quiet ["T1".toList] ["T".toList] ∧
      lineText {} before "X1Y2".toList =
        numberedLines (convertLines {} before).progress.state.blocks (cycleRows {} 1 2) := by
  have hd : Text.lines "T1\nT\nX1Y2\n".toList =
      ["T1".toList, "T".toList] ++ "X1Y2".toList :: [] := by decide
  have hole : holeAt ["T1".toList, "T".toList] "X1Y2".toList = some (1, 2) := by decide
  have quiet : Quiet ["T1".toList] ["T".toList] := by
    intro front line rest h
    cases front with
    | nil =>
      obtain ⟨rfl, rfl⟩ := List.cons.inj h
      decide
    | cons l front => simp at h
  have due : CycleDue ["T1".toList] := ⟨[], "T1".toList, [], rfl, by decide, rfl⟩
  exact ⟨hd, hole, quiet,
    ((convertText_around_hole {} hd hole).2.2.2 ["T1".toList] ["T".toList] rfl quiet).2 due⟩

end DrillPost.Conversion
