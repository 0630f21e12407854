import DrillPost.Proofs.Conversion.Holes
import DrillPost.Proofs.Conversion.Numbering
import DrillPost.Proofs.Conversion.Warnings
import Mathlib

/-!
# The counts of a conversion

The summary of a conversion counts tools, holes and blocks, and each count can be had from another
record: from what a listener hears, from the lines of the program, or from the number of lines that
were read. The records agree whatever the lines are. A line of a document adds six blocks at most,
so a counter of 64 bits holds the number of the last block.

* `fullCycles`: the places in a program where the four lines of a drilling cycle stand
  (`fullCycles_run`);
* `passes`: the actions without any trace (`length_ofAction_add`);
* `Accounts`: the law of the counts, for a conversion and what it has added (`Accounts.step`,
  `accounts_convertLines`);
* `Balanced`: the law for the summary (`balanced_conversion`).
-/

namespace DrillPost.Conversion

open Excellon Gcode

/-! ## Drilling cycles -/

/-- Whether a line starts the drilling cycle. -/
def isDrillCycle : Line → Bool
  | .block (.drillCycle ..) => true
  | _ => false

/-- Whether a program begins with the four lines that take the drill over a hole and start the
drilling cycle there. -/
def beginsWithCycle (d : Drilling) : Program → Bool
  | .block (.rapidTo x y) :: rest =>
    [Line.block (.rapidHeight d.safeHeight), .block (.rapidHeight d.feedHeight),
      .block (.drillCycle x y d.bottomHeight d.feedHeight d.feedRate)].isPrefixOf rest
  | _ => false

/-- The number of places in a program where these four lines stand. -/
def fullCycles (d : Drilling) (p : Program) : Nat := p.tails.countP (beginsWithCycle d)

theorem fullCycles_cons (d : Drilling) (l : Line) (p : Program) :
    fullCycles d (l :: p) = fullCycles d p + (beginsWithCycle d (l :: p)).toNat := by
  rw [fullCycles, List.tails_cons, List.countP_cons, ← fullCycles]
  cases beginsWithCycle d (l :: p) <;> rfl

/-- What a line adds to a program starts a cycle by the four lines of the cycle or not at all. -/
theorem fullCycles_program_append (d : Drilling) (state : State) (line : Text) (a : Action)
    (rest : Program) :
    fullCycles d (state.program d line a ++ rest) =
      (state.program d line a).countP isDrillCycle + fullCycles d rest := by
  cases a with
  | drill x y =>
    cases h : state.cycleDue with
    | true =>
      rw [program_drill_of_cycleDue d line x y h]
      simp [fullCycles_cons, beginsWithCycle, isDrillCycle, Nat.add_comm]
    | false =>
      rw [program_drill_of_not_cycleDue d line x y h]
      simp [fullCycles_cons, beginsWithCycle, isDrillCycle]
  | _ => simp [State.program, fullCycles_cons, beginsWithCycle, isDrillCycle]

/-- Every cycle of a program is started by the four lines. -/
theorem fullCycles_run (d : Drilling) (p : Progress) (ls : List Text) :
    fullCycles d (run d p ls).program = (run d p ls).program.countP isDrillCycle := by
  -- The induction is from the front: the four lines of a cycle all come from one line, so none of
  -- the programs behind it can complete them.
  induction ls generalizing p with
  | nil => rfl
  | cons l ls ih =>
    simp only [run_cons, step]
    rw [fullCycles_program_append, ih, List.countP_append]

/-! ## One line -/

namespace Event

/-- The unit that was set. -/
def unit? : Event → Option LengthUnit
  | .unitSet unit => some unit
  | _ => none

/-- Whether a tool was defined. -/
def definesTool : Event → Bool
  | .toolDefined .. => true
  | _ => false

/-- Whether a tool was selected. -/
def selectsTool : Event → Bool
  | .toolSelected _ => true
  | _ => false

/-- Every event is of one of six kinds. -/
theorem length_eq_add (es : List Event) :
    es.length = es.count .headerStarted + (es.filterMap unit?).length + es.count .programEnded +
      es.countP definesTool + es.countP selectsTool + (es.filterMap warning?).length := by
  induction es with
  | nil => rfl
  | cons e es ih =>
    rw [List.length_cons, ih]
    cases e <;> simp [unit?, definesTool, selectsTool, warning?, List.filterMap_cons,
      List.countP_cons] <;> omega

end Event

/-- Whether an action is without any trace. -/
def passes : Action → Bool
  | .idle | .closeHeader => true
  | _ => false

section

variable (d : Drilling) (state : State) (t : Tally) (n : Nat) (line : Text) (a : Action)

theorem toolsDefined_next :
    (t.next line a).toolsDefined =
      t.toolsDefined + (Event.ofAction n line a).toList.countP Event.definesTool := by
  cases a <;> rfl

theorem toolChanges_next :
    (t.next line a).toolChanges =
      t.toolChanges + (Event.ofAction n line a).toList.countP Event.selectsTool := by
  cases a <;> rfl

theorem unit_next :
    (t.next line a).unit =
      ((Event.ofAction n line a).toList.filterMap Event.unit?).getLast?.or t.unit := by
  cases a <;> rfl

/-- A line is heard of, or it drills a hole, or it is without any trace. -/
theorem length_ofAction_add :
    (Event.ofAction n line a).toList.length + (drills a).toNat + (passes a).toNat = 1 := by
  cases a <;> rfl

/-- A hole has one block, and three more when it starts a cycle. -/
theorem blocksOf_eq_add :
    state.blocksOf a =
      2 * (Event.ofAction n line a).toList.count .headerStarted +
        ((Event.ofAction n line a).toList.filterMap Event.unit?).length +
        4 * (Event.ofAction n line a).toList.count .programEnded +
        6 * (Event.ofAction n line a).toList.countP Event.selectsTool + (drills a).toNat +
        3 * (state.program d line a).countP isDrillCycle := by
  cases a with
  | drill x y =>
    cases h : state.cycleDue <;>
      simp [State.blocksOf, State.program, h, Event.ofAction, drills, isDrillCycle]
  | _ => rfl

theorem countP_isDrillCycle_program_le :
    (state.program d line a).countP isDrillCycle ≤ (drills a).toNat := by
  cases a with
  | drill x y => cases h : state.cycleDue <;> simp [State.program, h, drills, isDrillCycle]
  | _ => exact Nat.le_refl 0

/-- A cycle that is started was due, and only a tool makes one due. -/
theorem countP_isDrillCycle_add_cycleDue_le :
    (state.program d line a).countP isDrillCycle + (state.next a).cycleDue.toNat ≤
      state.cycleDue.toNat + (Event.ofAction n line a).toList.countP Event.selectsTool := by
  cases a with
  | drill x y => cases h : state.cycleDue <;> simp [State.program, State.next, h, isDrillCycle]
  | selectTool tool =>
    simp [State.program, State.next, isDrillCycle, Event.ofAction, Event.selectsTool]
  | _ => simp [State.program, State.next, isDrillCycle]

end

/-! ## All lines -/

/-- The counts of a conversion agree with what was heard of it and with the program. -/
structure Accounts (r : Result) (silent : Nat) : Prop where
  toolsDefined : r.progress.tally.toolsDefined = r.events.countP Event.definesTool
  toolChanges : r.progress.tally.toolChanges = r.events.countP Event.selectsTool
  unit : r.progress.tally.unit = (r.events.filterMap Event.unit?).getLast?
  lines : r.progress.tally.linesRead = r.events.length + r.progress.tally.holes + silent
  blocks : r.progress.state.blocks =
    2 * r.events.count .headerStarted + (r.events.filterMap Event.unit?).length +
      4 * r.events.count .programEnded + 6 * r.events.countP Event.selectsTool +
      r.progress.tally.holes + 3 * r.program.countP isDrillCycle
  cycles_le_holes : r.program.countP isDrillCycle ≤ r.progress.tally.holes
  /-- A cycle that is due counts too: this carries the bound from line to line. -/
  cycles_le_tools : r.program.countP isDrillCycle + r.progress.state.cycleDue.toNat ≤
    r.events.countP Event.selectsTool

/-- The law holds with one more line. -/
theorem Accounts.step {r : Result} {silent : Nat} (h : Accounts r silent) (d : Drilling) (n : Nat)
    (line : Text) (a : Action) :
    Accounts
      { progress := ⟨r.progress.state.next a, r.progress.tally.next line a⟩
        program := r.program ++ r.progress.state.program d line a
        events := r.events ++ (Event.ofAction n line a).toList }
      (silent + (passes a).toNat) := by
  have holes := holes_next r.progress.tally line a
  constructor
  · rw [toolsDefined_next _ n, h.toolsDefined, List.countP_append]
  · rw [toolChanges_next _ n, h.toolChanges, List.countP_append]
  · rw [unit_next _ n, h.unit, List.filterMap_append, List.getLast?_append]
  · have one := length_ofAction_add n line a
    have before := h.lines
    simp only [Tally.linesRead_next, List.length_append]
    omega
  · have added := blocksOf_eq_add d r.progress.state n line a
    have before := h.blocks
    simp only [State.blocks_next, List.count_append, List.filterMap_append, List.length_append,
      List.countP_append]
    omega
  · have added := countP_isDrillCycle_program_le d r.progress.state line a
    have before := h.cycles_le_holes
    simp only [List.countP_append]
    omega
  · have added := countP_isDrillCycle_add_cycleDue_le d r.progress.state n line a
    have before := h.cycles_le_tools
    simp only [List.countP_append]
    omega

variable (s : Settings)

theorem passes_iff {a : Action} : passes a = true ↔ a = .idle ∨ a = .closeHeader := by
  cases a <;> simp [passes]

/-- The lines without a text are those without any trace. -/
theorem count_nil_eachLine_concat (ls : List Text) (line : Text) :
    (eachLine (lineText s) [] (ls ++ [line])).count [] =
      (eachLine (lineText s) [] ls).count [] + (passes (actionAt ls line)).toNat := by
  have silent : (lineText s ls line == []) = passes (actionAt ls line) := by
    rw [Bool.eq_iff_iff, beq_iff_eq, lineText_eq_nil_iff, passedOver_iff, passes_iff]
  rw [eachLine_concat, List.count_append, List.count_singleton, silent]
  cases passes (actionAt ls line) <;> rfl

/-- The law holds for every conversion. -/
theorem accounts_convertLines (ls : List Text) :
    Accounts (convertLines s ls) ((eachLine (lineText s) [] ls).count []) := by
  induction ls using List.reverseRecOn with
  | nil => exact ⟨rfl, rfl, rfl, rfl, rfl, Nat.le_refl 0, Nat.le_refl 0⟩
  | append_singleton ls line ih =>
    rw [convertLines_concat, count_nil_eachLine_concat]
    exact ih.step s.drilling _ (Text.trim line) (actionAt ls line)

/-! ## The summary -/

/-- The counts in the summary add up, when so many full cycles are in the program and so many lines
add nothing to it. -/
structure Balanced (r : Result) (cycles silent : Nat) : Prop where
  gcodeLines : r.progress.summary.gcodeLines =
    2 * r.events.count .headerStarted + (r.events.filterMap Event.unit?).length +
      4 * r.events.count .programEnded + 6 * r.progress.summary.toolChanges +
      r.progress.summary.holes + 3 * cycles
  cycles_le_holes : cycles ≤ r.progress.summary.holes
  cycles_le_toolChanges : cycles ≤ r.progress.summary.toolChanges
  linesRead : r.progress.summary.linesRead =
    r.events.count .headerStarted + (r.events.filterMap Event.unit?).length +
      r.events.count .programEnded + r.progress.summary.toolsDefined +
      r.progress.summary.toolChanges + r.progress.summary.holes +
      r.progress.summary.warnings.size + silent
  toolsDefined : r.progress.summary.toolsDefined = r.events.countP Event.definesTool
  toolChanges : r.progress.summary.toolChanges = r.events.countP Event.selectsTool
  unit : r.progress.summary.unit = (r.events.filterMap Event.unit?).getLast?

theorem balanced_convertLines (ls : List Text) :
    Balanced (convertLines s ls) (fullCycles s.drilling (convertLines s ls).program)
      ((eachLine (lineText s) [] ls).count []) := by
  have accounts := accounts_convertLines s ls
  have cycles : fullCycles s.drilling (convertLines s ls).program =
      (convertLines s ls).program.countP isDrillCycle := fullCycles_run s.drilling {} ls
  have kinds := Event.length_eq_add (convertLines s ls).events
  have warnings : ((convertLines s ls).events.filterMap Event.warning?).length =
      (convertLines s ls).progress.tally.warnings.size := by
    rw [warnings_events, Array.length_toList]
  rw [cycles]
  refine ⟨?_, accounts.cycles_le_holes, ?_, ?_, accounts.toolsDefined, accounts.toolChanges,
    accounts.unit⟩
  · have blocks := accounts.blocks
    rw [← accounts.toolChanges] at blocks
    exact blocks
  · have tools := accounts.cycles_le_tools
    rw [← accounts.toolChanges] at tools
    exact (Nat.le_add_right _ _).trans tools
  · have lines := accounts.lines
    rw [kinds, warnings, ← accounts.toolsDefined, ← accounts.toolChanges] at lines
    simp only [Progress.summary]
    omega

/-- **The counts in the summary add up**, whatever the lines are: with each other, with what a
listener heard, with the cycles in the program and with the lines that add nothing to it, which are
those that are passed over. After every line the number of the last block is ten times the number of
blocks and at most sixty times the number of lines, so 64 bits hold it as long as they can hold
sixty times the number of all lines. -/
theorem balanced_conversion (ls : List Text) :
    Balanced (convertLines s ls) (fullCycles s.drilling (convertLines s ls).program)
        ((eachLine (lineText s) [] ls).count []) ∧
      (∀ before line after, ls = before ++ line :: after →
        (lineText s before line = [] ↔ PassedOver before line)) ∧
      ∀ before, before <+: ls →
        let r := convertLines s before
        r.progress.state.lineCounter = 10 * r.progress.summary.gcodeLines ∧
          10 * r.progress.summary.gcodeLines ≤ 60 * r.progress.summary.linesRead ∧
          (60 * ls.length < 2 ^ 64 →
            (counter r.program).toNat = r.progress.state.lineCounter) := by
  refine ⟨balanced_convertLines s ls, fun _ _ _ _ => lineText_eq_nil_iff s, ?_⟩
  intro before hb r
  have few : r.progress.summary.gcodeLines ≤ 0 + 6 * before.length :=
    blocks_run_le s.drilling {} before
  have counted : r.progress.summary.gcodeLines = blockCount r.program :=
    (blocks_run s.drilling {} before).trans (Nat.zero_add _)
  have read : r.progress.summary.linesRead = before.length := linesRead_convertLines s before
  have shorter : before.length ≤ ls.length := hb.length_le
  refine ⟨rfl, by omega, fun short => ?_⟩
  have small : 10 * blockCount r.program < 2 ^ 64 := by omega
  rw [toNat_counter small, ← counted]
  rfl

end DrillPost.Conversion
