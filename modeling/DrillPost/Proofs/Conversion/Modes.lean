import DrillPost.Proofs.Conversion.Running

/-!
# Whether a hole is drilled

A bare position is drilled when the machine reaches it with the drilling cycle active and the
spindle on. A tool starts the spindle, and its first hole starts the cycle. From then on the cycle
is taken to be active until the next tool is selected, and the end of the program is one more line:
what follows is converted as before. So behind a tool the spindle is off where the program has
ended, and the cycle is inactive where it has ended or a header has been opened; everywhere else
both are on.

* `Steady`: rows that leave tool, spindle and program alone;
* `Settled`: what holds of the modes between one line of a document and the next, in terms of the
  rows (`settled_convertLines`);
* `Reached`, `modes_at_hole`: the modes that a hole is reached with, in terms of the rows and of the
  lines.
-/

namespace DrillPost.Conversion

open Excellon Gcode

/-! ## Steady rows -/

/-- A row that does not change the tool, does not end the program and leaves the spindle alone. -/
structure Steady (row : List Text) : Prop where
  tool : changesTool row = false
  ending : endsProgram row = false
  spindle : ∀ m : Modes, (m.after row).spindle = m.spindle

/-- Whether the row of a block is steady. -/
def isSteady : Block → Bool
  | .spindleStop | .programStop | .toolChange _ | .spindleStart _ => false
  | _ => true

theorem steady_words (precision : Option Nat) {b : Block} (h : isSteady b = true) :
    Steady (b.words precision) := by
  refine ⟨?_, ?_, fun m => ?_⟩
  · rw [changesTool_words]
    cases b <;> first | rfl | cases h
  · rw [endsProgram_words]
    cases b <;> first | rfl | cases h
  · rw [Modes.after_words]
    cases b <;> first | rfl | cases h

theorem spindle_foldl {rows : List (List Text)} (h : ∀ row ∈ rows, Steady row) (m : Modes) :
    (rows.foldl Modes.after m).spindle = m.spindle := by
  induction rows generalizing m with
  | nil => rfl
  | cons row rows ih =>
    rw [List.foldl_cons, ih fun r hr => h r (List.mem_cons_of_mem row hr)]
    exact (h row List.mem_cons_self).spindle m

/-- Only tools and the end of the program are not steady. -/
theorem steady_program (d : Drilling) (precision : Option Nat) (state : State) (line : Text)
    {a : Action} (ht : ∀ tool, a ≠ .selectTool tool) (he : a ≠ .endProgram) :
    ∀ row ∈ rowsOf precision (state.program d line a), Steady row := by
  have steady : ∀ b ∈ blocks (state.program d line a), isSteady b = true := by
    cases a with
    | selectTool tool => exact absurd rfl (ht tool)
    | endProgram => exact absurd rfl he
    | drill x y =>
      cases h : state.cycleDue with
      | true =>
        rw [program_drill_of_cycleDue d line x y h]
        simp [isSteady]
      | false =>
        rw [program_drill_of_not_cycleDue d line x y h]
        simp [isSteady]
    | _ => simp [State.program, isSteady]
  intro row hr
  obtain ⟨b, hb, rfl⟩ := List.mem_map.1 hr
  exact steady_words precision (steady b hb)

/-! ## Between lines -/

/-- What holds of the modes between one line and the next, once a tool was selected: the spindle is
on unless the program has ended since, and the cycle was started unless that is still due. -/
structure Settled (state : State) (rows : List (List Text)) : Prop where
  spindle : (∃ row ∈ rows, changesTool row = true) →
    ((modesAfter rows).spindle = true ↔
      ∀ row ∈ sinceLast changesTool rows, endsProgram row = false)
  cycle : (∃ row ∈ rows, changesTool row = true) → state.cycleDue = false →
    ∃ row ∈ sinceLast changesTool rows, startsCycle row = true

theorem exists_changesTool_of_append {rows more : List (List Text)}
    (h : ∀ row ∈ more, changesTool row = false) :
    (∃ row ∈ rows ++ more, changesTool row = true) → ∃ row ∈ rows, changesTool row = true := by
  rintro ⟨row, hr, ht⟩
  rcases List.mem_append.1 hr with hr | hr
  · exact ⟨row, hr, ht⟩
  · rw [h row hr] at ht
    cases ht

/-- The spindle behind steady rows is as it was in front of them. -/
theorem Settled.spindle_append {state : State} {rows more : List (List Text)}
    (h : Settled state rows) (hm : ∀ row ∈ more, Steady row)
    (ht : ∃ row ∈ rows ++ more, changesTool row = true) :
    (modesAfter (rows ++ more)).spindle = true ↔
      ∀ row ∈ sinceLast changesTool (rows ++ more), endsProgram row = false := by
  have tools : ∀ row ∈ more, changesTool row = false := fun row hr => (hm row hr).tool
  rw [modesAfter_append, spindle_foldl hm, sinceLast_append _ tools,
    h.spindle (exists_changesTool_of_append tools ht), List.forall_mem_append]
  exact (and_iff_left fun row hr => (hm row hr).ending).symm

theorem Settled.append {state next : State} {rows more : List (List Text)}
    (h : Settled state rows) (hm : ∀ row ∈ more, Steady row)
    (hc : next.cycleDue = false →
      state.cycleDue = false ∨ ∃ row ∈ more, startsCycle row = true) :
    Settled next (rows ++ more) := by
  refine ⟨h.spindle_append hm, fun ht hd => ?_⟩
  have tools : ∀ row ∈ more, changesTool row = false := fun row hr => (hm row hr).tool
  rw [sinceLast_append _ tools]
  rcases hc hd with hs | ⟨row, hr, hrow⟩
  · obtain ⟨row, hr, hrow⟩ := h.cycle (exists_changesTool_of_append tools ht) hs
    exact ⟨row, List.mem_append_left _ hr, hrow⟩
  · exact ⟨row, List.mem_append_right _ hr, hrow⟩

theorem sinceLast_append_changesTool {row : List Text} {more : List (List Text)}
    (ht : changesTool row = true) (hm : ∀ r ∈ more, changesTool r = false)
    (rows : List (List Text)) : sinceLast changesTool (rows ++ row :: more) = more := by
  have split : rows ++ row :: more = rows ++ [row] ++ more := by simp
  rw [split, sinceLast_append _ hm, sinceLast_concat, ht]
  rfl

section

variable {state after : State} {rows : List (List Text)} (d : Drilling) (precision : Option Nat)
  (line : Text)

/-- Behind a tool the spindle is on, and the cycle is due. -/
theorem settled_selectTool (tool : UInt32) (hd : after.cycleDue = true) :
    Settled after (rows ++ rowsOf precision (state.program d line (.selectTool tool))) := by
  have split : rows ++ rowsOf precision (state.program d line (.selectTool tool)) =
      rows ++ [Block.spindleStop, .coolantOff, .goHome].map (Block.words precision) ++
        (Block.toolChange tool).words precision ::
          [Block.spindleStart d.spindleSpeed, .workOffset].map (Block.words precision) := by
    simp [State.program, rowsOf]
  rw [split]
  constructor
  · intro _
    rw [modesAfter_append, sinceLast_append_changesTool (changesTool_words precision _)
      (by simp [changesTool_words])]
    refine iff_of_true ?_ ?_
    · simp [Modes.after_words]
    · simp [endsProgram_words]
  · intro _ hn
    rw [hd] at hn
    cases hn

/-- Behind the end of the program the spindle is off, and the cycle is due if it was. -/
theorem Settled.endProgram (h : Settled state rows) (hd : after.cycleDue = state.cycleDue) :
    Settled after (rows ++ rowsOf precision (state.program d line .endProgram)) := by
  have tools : ∀ row ∈ rowsOf precision (state.program d line .endProgram),
      changesTool row = false := by
    simp [State.program, rowsOf, changesTool_words]
  constructor
  · intro _
    rw [modesAfter_append, sinceLast_append _ tools]
    refine iff_of_false ?_ fun none => ?_
    · simp [State.program, rowsOf, Modes.after_words]
    · have ending := none (Block.programStop.words precision)
        (List.mem_append_right _ (List.mem_map_of_mem (by simp [State.program])))
      simp [endsProgram_words] at ending
  · intro ht hn
    obtain ⟨row, hr, hrow⟩ := h.cycle (exists_changesTool_of_append tools ht) (hd ▸ hn)
    rw [sinceLast_append _ tools]
    exact ⟨row, List.mem_append_left _ hr, hrow⟩

/-- What holds between lines is kept by a line. -/
theorem Settled.next (h : Settled state rows) (a : Action) :
    Settled (state.next a) (rows ++ rowsOf precision (state.program d line a)) := by
  cases a with
  | selectTool tool => exact settled_selectTool d precision line tool rfl
  | endProgram => exact h.endProgram d precision line rfl
  | drill x y =>
    refine h.append (steady_program d precision state line (by simp) (by simp)) fun _ => ?_
    cases hd : state.cycleDue with
    | true =>
      refine .inr ⟨(Block.drillCycle x y d.bottomHeight d.feedHeight d.feedRate).words precision,
        ?_, startsCycle_words precision _⟩
      rw [program_drill_of_cycleDue d line x y hd]
      exact List.mem_map_of_mem (by simp)
    | false => exact .inl rfl
  | _ =>
    exact h.append (steady_program d precision state line (by simp) (by simp)) fun hd => .inl hd

end

/-- Only a hole is converted to holes. -/
theorem not_hole_program (d : Drilling) (precision : Option Nat) (state : State) (line : Text)
    {a : Action} (h : ∀ x y, a ≠ .drill x y) :
    ∀ row ∈ rowsOf precision (state.program d line a),
      isMove row = false ∧ startsCycle row = false := by
  cases a with
  | drill x y => exact absurd rfl (h x y)
  | _ => simp [State.program, rowsOf, isMove_words, startsCycle_words]

theorem exists_drill_of_hole {d : Drilling} {precision : Option Nat} {state : State} {line : Text}
    {a : Action} {row : List Text} (hr : row ∈ rowsOf precision (state.program d line a))
    (hh : isMove row = true ∨ startsCycle row = true) : ∃ x y, a = .drill x y := by
  by_contra other
  obtain ⟨move, cycle⟩ := not_hole_program d precision state line
    (fun x y ha => other ⟨x, y, ha⟩) row hr
  simp [move, cycle] at hh

/-- The blocks of tool 1 and of the approach to its first hole, with the settings as they are by
default. -/
def firstApproach : List Block :=
  let d : Drilling := {}
  [.spindleStop, .coolantOff, .goHome, .toolChange 1, .spindleStart d.spindleSpeed, .workOffset,
    .rapidTo 1 1, .rapidHeight d.safeHeight, .rapidHeight d.feedHeight]

/-- The block of this hole. -/
def firstCycle : Block :=
  let d : Drilling := {}
  .drillCycle 1 1 d.bottomHeight d.feedHeight d.feedRate

end DrillPost.Conversion
