import DrillPost.Proofs.Conversion.LineByLine

/-!
# What the state of a conversion remembers

Where the next line stands and which tool is in the spindle are told by the lines that were read:
by the last of those that open or close the header, and by the last one behind it with a tool
number. Other lines leave the state alone. In the header this goes for all lines of tools and of
coordinates, whatever stands in them; the same lines would select tools and drill holes behind it.

* `marksHeader`: the lines that open or close the header (`insideHeader_eq`);
* `tool_convertLines`: the tool in the spindle;
* `Kept`, `kept_run`: lines of tools and coordinates in the header;
* `state_step_of_machineCode`: lines that set the unit or end the program;
* `state_convertLines`: the state after any lines.
-/

namespace DrillPost.Conversion

open Excellon

/-! ## Where the next line stands -/

/-- Whether a line is an `M48` or begins with a percent sign. -/
def marksHeader (line : Text) : Bool :=
  machineCode line == some 48 || (Text.trim line).head? == some '%'

theorem opensHeader_eq (line : Text) : opensHeader line = (machineCode line == some 48) := by
  rw [opensHeader, Bool.eq_iff_iff, beq_iff_eq, beq_iff_eq,
    Action.ofLine_eq_openHeader_iff_machineCode]

theorem closesHeader_eq (line : Text) :
    closesHeader line = ((Text.trim line).head? == some '%') := by
  rw [closesHeader, Bool.eq_iff_iff, beq_iff_eq, beq_iff_eq,
    Action.ofLine_eq_closeHeader_iff_head?]

/-- Of the lines that are an `M48` or begin with a percent sign, the last one tells. -/
theorem insideHeader_eq (ls : List Text) :
    insideHeader ls = ((ls.filter marksHeader).getLast?).any (machineCode · == some 48) := by
  unfold insideHeader
  congr 1
  · exact funext opensHeader_eq
  · congr 2
    funext line
    rw [marksHeader, opensHeader_eq, closesHeader_eq]

/-! ## The tool in the spindle -/

theorem tool_next (state : State) (a : Action) (tool : Option UInt32)
    (h : ∀ t, a = .selectTool t ↔ tool = some t) :
    (state.next a).tool = tool.or state.tool := by
  cases a with
  | selectTool t =>
    rw [(h t).1 rfl]
    rfl
  | _ =>
    obtain rfl : tool = none := Option.eq_none_iff_forall_ne_some.2 fun t ht => by
      cases (h t).2 ht
    rfl

/-- **The tool in the spindle** is the one that was selected last. -/
theorem tool_convertLines (s : Settings) (ls : List Text) :
    (convertLines s ls).progress.state.tool =
      (eachLine toolAt [] ls).reduceOption.getLast? := by
  induction ls using List.reverseRecOn with
  | nil => rfl
  | append_singleton ls line ih =>
    rw [convertLines_concat, eachLine_concat, List.reduceOption_append,
      List.reduceOption_singleton]
    simp only [tool_next _ _ (toolAt ls line) fun _ => actionAt_eq_selectTool_iff, ih]
    cases toolAt ls line with
    | none => simp
    | some tool => simp

/-! ## Lines in the header -/

/-- A line that begins with the letter of a tool or of a coordinate. -/
def OfToolOrCoordinate (line : Text) : Prop :=
  (Text.trim line).head? = some 'T' ∨ (Text.trim line).head? = some 'X' ∨
    (Text.trim line).head? = some 'Y'

/-- What is as it was after some lines: everything but the numbers of lines read and of tools
defined. -/
structure Kept (before after : Progress) : Prop where
  state : after.state = before.state
  toolChanges : after.tally.toolChanges = before.tally.toolChanges
  holes : after.tally.holes = before.tally.holes
  warnings : after.tally.warnings = before.tally.warnings
  unit : after.tally.unit = before.tally.unit

theorem Kept.trans {p q r : Progress} (h : Kept p q) (k : Kept q r) : Kept p r where
  state := k.state.trans h.state
  toolChanges := k.toolChanges.trans h.toolChanges
  holes := k.holes.trans h.holes
  warnings := k.warnings.trans h.warnings
  unit := k.unit.trans h.unit

variable (d : Drilling) {p : Progress}

/-- In the header a line of a tool defines it, and a line of coordinates is passed over. -/
theorem kept_step {line : Text} (h : p.state.inHeader = true) (hl : OfToolOrCoordinate line) :
    Kept p (step d p line).progress := by
  obtain ⟨state, tally⟩ := p
  change state.inHeader = true at h
  rcases hl with tool | coordinates
  · have notBlank : Text.trim line ≠ [] := by
      intro blank
      simp [blank] at tool
    obtain ⟨first, second, pair⟩ := exists_pair_normalize notBlank
    have action : Action.ofLine state.inHeader line =
        .defineTool first.raw ((second.map (·.raw)).getD []) :=
      Action.ofLine_eq_iff.2 (.definition tool h pair)
    simp only [step, action]
    exact ⟨rfl, rfl, rfl, rfl, rfl⟩
  · have action : Action.ofLine state.inHeader line = .idle :=
      Action.ofLine_eq_iff.2 (.skipped coordinates h)
    simp only [step, action]
    exact ⟨rfl, rfl, rfl, rfl, rfl⟩

/-- **No number of such lines** changes anything else. -/
theorem kept_run {ls : List Text} (h : p.state.inHeader = true)
    (hl : ∀ line ∈ ls, OfToolOrCoordinate line) : Kept p (run d p ls).progress := by
  induction ls generalizing p with
  | nil => exact ⟨rfl, rfl, rfl, rfl, rfl⟩
  | cons line ls ih =>
    rw [run_cons]
    have first := kept_step d h (hl line List.mem_cons_self)
    have still : (step d p line).progress.state.inHeader = true := first.state ▸ h
    exact first.trans (ih still fun other ho => hl other (List.mem_cons_of_mem _ ho))

/-! ## Units and the end of the program -/

/-- A line that sets the unit or ends the program adds blocks and changes nothing else. -/
theorem state_step_of_machineCode {line : Text} {code : Int} (h : machineCode line = some code)
    (hc : code = 30 ∨ code = 71 ∨ code = 72) :
    (step d p line).progress.state =
      { p.state with blocks := p.state.blocks + if code = 30 then 4 else 1 } := by
  obtain ⟨state, tally⟩ := p
  rcases hc with rfl | rfl | rfl
  · have action : Action.ofLine state.inHeader line = .endProgram :=
      Action.ofLine_eq_iff.2 (.endProgram h)
    simp only [step, action]
    rfl
  · have action : Action.ofLine state.inHeader line = .setUnit .metric :=
      Action.ofLine_eq_iff.2 (.setUnit h rfl)
    simp only [step, action]
    rfl
  · have action : Action.ofLine state.inHeader line = .setUnit .imperial :=
      Action.ofLine_eq_iff.2 (.setUnit h rfl)
    simp only [step, action]
    rfl

/-! ## The state -/

/-- **Header and tool are remembered from the lines alone**, after any lines whatever. The next line
stands inside the header exactly when, of the lines so far that are an `M48` or begin with a percent
sign, there is a last one and it is an `M48`. The tool in the spindle is the last one that a line
behind the header selected, if there is any. From any progress on, lines of tools and coordinates in
the header change nothing of the state, and neither tool changes nor holes nor warnings; and a line
that sets the unit or ends the program changes nothing of the state but the number of blocks. -/
theorem state_convertLines (s : Settings) :
    (∀ ls, ((convertLines s ls).progress.state.inHeader = true ↔
        ∃ last, (ls.filter marksHeader).getLast? = some last ∧ machineCode last = some 48) ∧
      (convertLines s ls).progress.state.tool =
        (eachLine toolAt [] ls).reduceOption.getLast?) ∧
      (∀ p ls, p.state.inHeader = true → (∀ line ∈ ls, OfToolOrCoordinate line) →
        Kept p (run s.drilling p ls).progress) ∧
      ∀ p line code, machineCode line = some code → code = 30 ∨ code = 71 ∨ code = 72 →
        (run s.drilling p [line]).progress.state =
          { p.state with blocks := p.state.blocks + if code = 30 then 4 else 1 } := by
  refine ⟨fun ls => ⟨?_, tool_convertLines s ls⟩, fun p ls => kept_run s.drilling,
    fun p line code h hc => ?_⟩
  · rw [inHeader_convertLines, insideHeader_eq, Option.any_eq_true]
    simp
  · rw [run_cons]
    exact state_step_of_machineCode s.drilling h hc

end DrillPost.Conversion
