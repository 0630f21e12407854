import DrillPost.Proofs.Conversion.Modes
import DrillPost.Proofs.Gcode.Number
import DrillPost.Proofs.Settings.Validation

/-!
# The heights of a drilling cycle

Admissible settings have the bottom of a hole below the height from which the drill is fed, and this
not above the height of safe travel. The program shows the heights as decimals, and these keep the
order. With a fixed number of places the bottom may be shown at the height of feeding, but only when
the two are at most a unit of the last place apart.

* `CycleTexts`: the texts of a hole that starts the drilling cycle (`eq_ofSettings_of_lineRows`);
* `heights_of_cycle`: the order of the heights that are shown.
-/

namespace DrillPost.Conversion

open Excellon Gcode Number

/-- The texts behind the letters of a hole that starts the drilling cycle. -/
structure CycleTexts where
  x : Text
  y : Text
  safe : Text
  feed : Text
  bottom : Text
  rate : Text

namespace CycleTexts

variable (t : CycleTexts)

/-- The rows that take the drill over the hole. -/
def approach : List (List Text) :=
  [[['G', '0'], 'X' :: t.x, 'Y' :: t.y], [['G', '0'], 'Z' :: t.safe], [['G', '0'], 'Z' :: t.feed]]

/-- The row that starts the drilling cycle: it draws back to the height of the last row before
it. -/
def cycle : List Text :=
  [['G', '9', '8'], ['G', '8', '1'], 'X' :: t.x, 'Y' :: t.y, 'Z' :: t.bottom, 'R' :: t.feed,
    'F' :: t.rate]

/-- The texts for a position, as the settings write them. -/
def ofSettings (s : Settings) (x y : Int) : CycleTexts where
  x := coordinate s.output.precision (hundredThousandths x)
  y := coordinate s.output.precision (hundredThousandths y)
  safe := coordinate s.output.precision s.drilling.safeHeight
  feed := coordinate s.output.precision s.drilling.feedHeight
  bottom := coordinate s.output.precision s.drilling.bottomHeight
  rate := feedRate s.drilling.feedRate

end CycleTexts

/-- Where none of the rows in front of the last one is of a kind, a row of this kind is the last. -/
theorem eq_last_of_append {p : List Text → Bool} (first : List (List Text))
    {front back : List (List Text)} {last row : List Text}
    (h : first ++ [last] = front ++ row :: back)
    (hf : ∀ r ∈ first, p r = false) (hp : p row = true) : front = first ∧ row = last := by
  rcases List.append_eq_append_iff.1 h with ⟨mid, rfl, hm⟩ | ⟨rest, rfl, hm⟩
  · cases mid with
    | nil => exact ⟨List.append_nil first, (List.cons.inj hm).1.symm⟩
    | cons r mid => simp at hm
  · cases rest with
    | nil => exact ⟨(List.append_nil front).symm, (List.cons.inj hm).1⟩
    | cons r rest =>
      have member : row ∈ front ++ r :: rest := by simp [(List.cons.inj hm).1]
      rw [hf row member] at hp
      cases hp

variable {s : Settings}

/-- A drilling cycle comes from a hole, with the rows of its approach in front. -/
theorem eq_ofSettings_of_lineRows {earlier : List Text} {line : Text}
    {front back : List (List Text)} {row : List Text}
    (hr : lineRows s earlier line = front ++ row :: back) (hc : startsCycle row = true) :
    ∃ x y, front = (CycleTexts.ofSettings s x y).approach ∧
      row = (CycleTexts.ofSettings s x y).cycle := by
  have member : row ∈ lineRows s earlier line := by simp [hr]
  obtain ⟨x, y, ha⟩ := exists_drill_of_hole member (.inr hc)
  refine ⟨x, y, ?_⟩
  cases hs : (convertLines s earlier).progress.state.cycleDue with
  | false =>
    rw [lineRows, ha, program_drill_of_not_cycleDue s.drilling _ x y hs] at member
    rw [List.mem_singleton.1 member] at hc
    exact absurd hc (by rw [startsCycle_words]; exact Bool.false_ne_true)
  | true =>
    have hrows : lineRows s earlier line = (CycleTexts.ofSettings s x y).approach ++
        [(CycleTexts.ofSettings s x y).cycle] := by
      rw [lineRows, ha, program_drill_of_cycleDue s.drilling _ x y hs]
      rfl
    have none : ∀ r ∈ (CycleTexts.ofSettings s x y).approach, startsCycle r = false := by
      simp only [CycleTexts.approach, List.forall_mem_cons]
      exact ⟨rfl, rfl, rfl, fun _ h => absurd h List.not_mem_nil⟩
    exact eq_last_of_append _ (hrows.symm.trans hr) none hc

/-! ## The order of the heights -/

/-- A row that starts the drilling cycle has its approach in front of it, and the heights that they
show are in order, with the bottom below the height to which the drill is drawn back. -/
def BottomBelow (front : List (List Text)) (row : List Text) : Prop :=
  ∃ (t : CycleTexts) (before : List (List Text)),
    front = before ++ t.approach ∧ row = t.cycle ∧
      ∃ safe feed bottom : ℚ, decimalValue t.safe = some safe ∧
        decimalValue t.feed = some feed ∧ decimalValue t.bottom = some bottom ∧
        feed ≤ safe ∧ bottom < feed

/-- **The heights of a drilling cycle.** Where settings are admissible, every row of a converted
document that starts the drilling cycle has the three rows of its approach in front of it, and the
heights that they show are in order: the second one, to which the drill is drawn back, is not above
the first and not below the bottom. It is above the bottom unless the number of places is fixed and
the two heights are at most a unit of the last place apart. -/
theorem heights_of_cycle (hs : s.check = .ok s) {document : Text} {front back : List (List Text)}
    {row : List Text} (hr : readBlocks (convertText s document).1 = front ++ row :: back)
    (hc : startsCycle row = true) :
    ∃ (t : CycleTexts) (before : List (List Text)),
      front = before ++ t.approach ∧ row = t.cycle ∧
        ∃ safe feed bottom : ℚ, decimalValue t.safe = some safe ∧
          decimalValue t.feed = some feed ∧ decimalValue t.bottom = some bottom ∧
          feed ≤ safe ∧ bottom ≤ feed ∧
          (bottom = feed → ∃ places, s.output.precision = some places ∧
            s.drilling.feedHeight.value - s.drilling.bottomHeight.value ≤ 1 / 10 ^ places) := by
  have admissible := Settings.check_eq_ok_iff.1 hs
  rw [readBlocks_convertText] at hr
  obtain ⟨before, line, after, mid, rest, -, rfl, hm⟩ := exists_line_of_row s hr
  obtain ⟨x, y, rfl, rfl⟩ := eq_ofSettings_of_lineRows hm hc
  refine ⟨CycleTexts.ofSettings s x y, _, rfl, rfl, _, _, _,
    decimalValue_coordinate s.output.precision admissible.safe_finite,
    decimalValue_coordinate s.output.precision admissible.feed_finite,
    decimalValue_coordinate s.output.precision admissible.bottom_finite,
    shown_mono s.output.precision admissible.feed_finite admissible.safe_finite
      admissible.feed_units_le_safe,
    shown_mono s.output.precision admissible.bottom_finite admissible.feed_finite
      admissible.bottom_units_lt_feed.le, fun same => ?_⟩
  cases hp : s.output.precision with
  | none =>
    rw [hp] at same
    exact absurd same (shown_strictMono admissible.bottom_finite admissible.feed_finite
      admissible.bottom_units_lt_feed).ne
  | some places =>
    rw [hp] at same
    exact ⟨places, rfl, (le_abs_self _).trans
      (abs_value_sub_value_le places admissible.feed_finite admissible.bottom_finite same.symm)⟩

theorem heights_of_first_hole :
    let front := firstApproach.map (Block.words none)
    let row := firstCycle.words none
    ({} : Settings).check = .ok {} ∧
      readBlocks (convertText {} "T1\nX1Y1\n".toList).1 = front ++ [row] ∧
      startsCycle row = true ∧ BottomBelow front row := by
  have hv : ({} : Settings).violation = none := by decide +kernel
  have hs : ({} : Settings).check = .ok {} := by simp [Settings.check, hv]
  have hb : blocks (convertLines {} (Text.lines "T1\nX1Y1\n".toList)).program =
      firstApproach ++ [firstCycle] := by decide +kernel
  have hr := readBlocks_convertText_of_blocks {} hb
  have hc : startsCycle (firstCycle.words none) = true := startsCycle_words none firstCycle
  obtain ⟨t, before, ht, hrow, safe, feed, bottom, h₁, h₂, h₃, h₄, h₅, h₆⟩ :=
    heights_of_cycle hs hr hc
  refine ⟨hs, hr, hc, t, before, ht, hrow, safe, feed, bottom, h₁, h₂, h₃, h₄, ?_⟩
  refine lt_of_le_of_ne h₅ fun same => ?_
  obtain ⟨places, hp, -⟩ := h₆ same
  cases hp

/-- The heights of every drilling cycle are in order. -/
def EveryBottomBelow (rows : List (List Text)) : Prop :=
  ∀ front row back, rows = front ++ row :: back → startsCycle row = true → BottomBelow front row

/-- Without places, the heights of feeding and of the bottom are both shown as zero by default. -/
theorem not_everyBottomBelow :
    let s : Settings := { output := { precision := some 0 } }
    s.check = .ok s ∧ ¬ EveryBottomBelow (readBlocks (convertText s "T1\nX1Y1\n".toList).1) := by
  have hv : ({ output := { precision := some 0 } } : Settings).violation = none := by
    decide +kernel
  refine ⟨by simp [Settings.check, hv], fun h => ?_⟩
  have hb : blocks (convertLines { output := { precision := some 0 } }
      (Text.lines "T1\nX1Y1\n".toList)).program = firstApproach ++ [firstCycle] := by
    decide +kernel
  obtain ⟨t, before, -, hrow, safe, feed, bottom, -, hf, hz, -, lt⟩ :=
    h _ _ [] (readBlocks_convertText_of_blocks _ hb) (startsCycle_words (some 0) firstCycle)
  have zero : coordinate (some 0) ({} : Drilling).bottomHeight =
      coordinate (some 0) ({} : Drilling).feedHeight := by decide +kernel
  -- the numbers are variables, so that nothing looks into their digits
  have texts (x y z r f : Text) (hw : [['G', '9', '8'], ['G', '8', '1'], 'X' :: x, 'Y' :: y,
      'Z' :: z, 'R' :: r, 'F' :: f] = t.cycle) : t.bottom = z ∧ t.feed = r := by
    simp only [CycleTexts.cycle, List.cons.injEq, true_and, and_true] at hw
    exact ⟨hw.2.2.1.symm, hw.2.2.2.1.symm⟩
  have same : t.bottom = t.feed := by
    obtain ⟨bottom, feed⟩ := texts _ _ _ _ _ hrow
    rw [bottom, feed]
    exact zero
  rw [same, hf] at hz
  exact lt.ne' (Option.some.inj hz)

end DrillPost.Conversion
