import DrillPost.Conversion.Run
import DrillPost.Proofs.Excellon.Action
import Mathlib

/-!
# What the earlier lines decide

What a line of a drill file does hangs on the lines in front of it in two ways: whether the line is
read inside the header, and whether a hole has to start a drilling cycle. Here both are told from
these lines alone, and the state of a conversion is shown to agree.

* `insideHeader`: of the lines that open or close the header, the last one opens it
  (`inHeader_convertLines`);
* `holeAt`, `toolAt`, `holesAfter`: the hole and the tool that a line stands for, and the holes of
  a list of lines;
* `CycleDue`: a tool was selected, and there was no hole since (`cycleDue_convertLines`);
* `convertLines_concat`: what one more line does to a conversion;
* `mem_program_convertLines_iff`: where the lines of a program come from.
-/

namespace DrillPost.Conversion

open Excellon

/-! ## The header -/

/-- Whether a line opens the header. -/
def opensHeader (line : Text) : Bool := Action.ofLine false line == .openHeader

/-- Whether a line closes the header. -/
def closesHeader (line : Text) : Bool := Action.ofLine false line == .closeHeader

/-- Whether a line behind these is read inside the header: of those that open or close the header,
the last one opens it. -/
def insideHeader (earlier : List Text) : Bool :=
  ((earlier.filter fun line => opensHeader line || closesHeader line).getLast?).any opensHeader

theorem insideHeader_concat (earlier : List Text) (line : Text) :
    insideHeader (earlier ++ [line]) =
      (opensHeader line || (!closesHeader line && insideHeader earlier)) := by
  unfold insideHeader
  rw [List.filter_append]
  cases ho : opensHeader line <;> cases hc : closesHeader line <;> simp [ho, hc]

/-! ## Holes and tools -/

/-- What a line does behind others. -/
def actionAt (earlier : List Text) (line : Text) : Action :=
  Action.ofLine (insideHeader earlier) line

/-- The hole that a line stands for behind others. -/
def holeAt (earlier : List Text) (line : Text) : Option (Int × Int) :=
  if insideHeader earlier then none else coordinatePair line

/-- The tool that a line selects behind others. -/
def toolAt (earlier : List Text) (line : Text) : Option UInt32 :=
  if insideHeader earlier then none else toolNumber line

theorem actionAt_eq_drill_iff {earlier : List Text} {line : Text} {x y : Int} :
    actionAt earlier line = .drill x y ↔ holeAt earlier line = some (x, y) := by
  rw [actionAt, holeAt, Action.ofLine_eq_drill_iff]
  cases insideHeader earlier <;> simp

theorem actionAt_eq_selectTool_iff {earlier : List Text} {line : Text} {tool : UInt32} :
    actionAt earlier line = .selectTool tool ↔ toolAt earlier line = some tool := by
  rw [actionAt, toolAt, Action.ofLine_eq_selectTool_iff]
  cases insideHeader earlier <;> simp

/-- The holes of lines that follow others, in order. -/
def holesAfter (earlier : List Text) : List Text → List (Int × Int)
  | [] => []
  | line :: rest => (holeAt earlier line).toList ++ holesAfter (earlier ++ [line]) rest

theorem holesAfter_append (earlier ls ms : List Text) :
    holesAfter earlier (ls ++ ms) = holesAfter earlier ls ++ holesAfter (earlier ++ ls) ms := by
  induction ls generalizing earlier with
  | nil => simp [holesAfter]
  | cons l ls ih => simp [holesAfter, ih]

theorem holesAfter_concat (earlier ls : List Text) (line : Text) :
    holesAfter earlier (ls ++ [line]) =
      holesAfter earlier ls ++ (holeAt (earlier ++ ls) line).toList := by
  rw [holesAfter_append]
  simp [holesAfter]

/-! ## The drilling cycle -/

/-- A hole behind these lines starts a drilling cycle: one of them selects a tool, and there is no
hole between it and their end. -/
def CycleDue (earlier : List Text) : Prop :=
  ∃ front line rest, earlier = front ++ line :: rest ∧ (toolAt front line).isSome ∧
    holesAfter (front ++ [line]) rest = []

theorem not_cycleDue_nil : ¬ CycleDue [] := by
  rintro ⟨front, line, rest, h, -⟩
  simp at h

/-- One more line makes a cycle due when it selects a tool, and leaves it due when it is no hole. -/
theorem cycleDue_concat {earlier : List Text} {line : Text} :
    CycleDue (earlier ++ [line]) ↔
      (toolAt earlier line).isSome ∨ holeAt earlier line = none ∧ CycleDue earlier := by
  constructor
  · rintro ⟨front, tool, rest, h, ht, hr⟩
    rcases concat_eq_append_cons_iff.1 h with ⟨rfl, rfl, -⟩ | ⟨rest, rfl, rfl⟩
    · exact .inl ht
    · rw [holesAfter_concat, List.append_eq_nil_iff] at hr
      have hn : holeAt (front ++ tool :: rest) line = none := by simpa using hr.2
      exact .inr ⟨hn, front, tool, rest, rfl, ht, hr.1⟩
  · rintro (ht | ⟨hn, front, tool, rest, rfl, ht, hr⟩)
    · exact ⟨earlier, line, [], rfl, ht, rfl⟩
    · refine ⟨front, tool, rest ++ [line], by simp, ht, ?_⟩
      rw [holesAfter_concat, hr]
      simpa using hn

/-! ## The state of a conversion -/

theorem inHeader_next (state : State) (a : Action) :
    (state.next a).inHeader =
      (a == .openHeader || (!(a == .closeHeader) && state.inHeader)) := by
  cases a <;> simp [State.next] <;> rfl

theorem cycleDue_next (state : State) (a : Action) :
    (state.next a).cycleDue = true ↔
      (∃ tool, a = .selectTool tool) ∨ (∀ x y, a ≠ .drill x y) ∧ state.cycleDue = true := by
  cases a <;> simp [State.next]

variable (s : Settings) (ls : List Text) (line : Text)

theorem convertLines_concat_eq_step :
    convertLines s (ls ++ [line]) =
      let first := convertLines s ls
      let last := step s.drilling first.progress line
      ⟨last.progress, first.program ++ last.program, first.events ++ last.events⟩ := by
  simp only [convertLines]
  rw [run_append]
  simp [run_cons]

/-- The state agrees with the lines on where the next one stands. -/
theorem inHeader_convertLines :
    (convertLines s ls).progress.state.inHeader = insideHeader ls := by
  induction ls using List.reverseRecOn with
  | nil => rfl
  | append_singleton ls line ih =>
    have openers : (Action.ofLine (insideHeader ls) line == .openHeader) = opensHeader line := by
      rw [opensHeader, Bool.eq_iff_iff, beq_iff_eq, beq_iff_eq, Action.ofLine_eq_openHeader_iff]
    have closers : (Action.ofLine (insideHeader ls) line == .closeHeader) = closesHeader line := by
      rw [closesHeader, Bool.eq_iff_iff, beq_iff_eq, beq_iff_eq, Action.ofLine_eq_closeHeader_iff]
    rw [convertLines_concat_eq_step, insideHeader_concat, ← openers, ← closers, ← ih]
    exact inHeader_next _ _

/-- **One more line** does what it does behind the others. -/
theorem convertLines_concat :
    convertLines s (ls ++ [line]) =
      let first := convertLines s ls
      let a := actionAt ls line
      let tally := first.progress.tally.next (Text.trim line) a
      { progress := ⟨first.progress.state.next a, tally⟩
        program := first.program ++ first.progress.state.program s.drilling (Text.trim line) a
        events := first.events ++
          (Event.ofAction tally.linesRead (Text.trim line) a).toList } := by
  rw [convertLines_concat_eq_step]
  simp only [step, inHeader_convertLines, actionAt]

/-- Every line of a program comes from a line of the document. -/
theorem mem_program_convertLines_iff {l : Gcode.Line} :
    l ∈ (convertLines s ls).program ↔
      ∃ before line after, ls = before ++ line :: after ∧
        l ∈ (convertLines s before).progress.state.program s.drilling (Text.trim line)
          (actionAt before line) := by
  induction ls using List.reverseRecOn with
  | nil => simp [convertLines]
  | append_singleton ls last ih =>
    rw [convertLines_concat, List.mem_append, ih]
    constructor
    · rintro (⟨before, line, after, rfl, hl⟩ | hl)
      · exact ⟨before, line, after ++ [last], by simp, hl⟩
      · exact ⟨ls, last, [], rfl, hl⟩
    · rintro ⟨before, line, after, h, hl⟩
      rcases concat_eq_append_cons_iff.1 h with ⟨rfl, rfl, -⟩ | ⟨after, -, rfl⟩
      · exact .inr hl
      · exact .inl ⟨before, line, after, rfl, hl⟩

/-- The state agrees with the lines on whether a hole has to start a drilling cycle. -/
theorem cycleDue_convertLines :
    (convertLines s ls).progress.state.cycleDue = true ↔ CycleDue ls := by
  induction ls using List.reverseRecOn with
  | nil => exact iff_of_false Bool.false_ne_true not_cycleDue_nil
  | append_singleton ls line ih =>
    have tools : (∃ tool, actionAt ls line = .selectTool tool) ↔ (toolAt ls line).isSome := by
      simp only [actionAt_eq_selectTool_iff, Option.isSome_iff_exists]
    have holes : (∀ x y, actionAt ls line ≠ .drill x y) ↔ holeAt ls line = none := by
      simp only [ne_eq, actionAt_eq_drill_iff, Option.eq_none_iff_forall_ne_some, Prod.forall]
    rw [convertLines_concat, cycleDue_concat, ← ih, ← tools, ← holes]
    exact cycleDue_next _ _

end DrillPost.Conversion
