import DrillPost.Proofs.Conversion.Reading
import DrillPost.Proofs.Gcode.Coordinates
import DrillPost.Proofs.Gcode.Grammar
import DrillPost.Proofs.Settings.Validation

/-!
# Converted documents are well-formed programs

Every numbered line of a converted document is in the grammar of blocks. Admissible settings have
finite heights, a spindle that turns and a positive feed rate; and a hole has coordinates of at most
63 bits, which are finite lengths. So nothing of a document gets into a numbered line but its whole
numbers, written anew.

* `isFinite_hundredThousandths`: coordinates that a drill file can hold are finite;
* `proper_program`: the blocks that a line adds to a program;
* `wellFormed_of_isNumbered`: the numbered lines of a converted document.
-/

namespace DrillPost

open Number

namespace Gcode

/-! ## Coordinates are finite -/

/-- Coordinates that a drill file can hold are finite. -/
theorem isFinite_hundredThousandths {i : Int} (h : i.natAbs ≤ Excellon.greatestMagnitude) :
    (hundredThousandths i).isFinite = true := by
  have whole : i.natAbs * Magnitude.unit / 1 < 2 ^ 2097 := by
    rw [Nat.div_one]
    exact (Nat.mul_le_mul_right _ h).trans_lt (by decide +kernel)
  obtain ⟨x, hx⟩ := Magnitude.exists_nearest_eq_some whole
  obtain ⟨y, hy⟩ := exists_div_hundredThousand_eq_some x
  rw [hundredThousandths, Binary64.ofInt, Magnitude.ofNat, hx, Binary64.ofMagnitude,
    Binary64.divBy, hy]
  rfl

/-! ## The lines of a program -/

/-- A numbered line of a program is that of a block. -/
theorem exists_block_of_isNumbered {precision : Option Nat} {n : Nat} {p : Program}
    (h : ∀ l ∈ p, l.Flat) {line : Text} (hl : line ∈ splitOn '\n' (write precision n p))
    (hn : isNumbered line = true) :
    ∃ b ∈ blocks p, ∃ k, line = (Line.block b).text precision k := by
  induction p generalizing n with
  | nil =>
    rw [write_nil, splitOn_of_notMem List.not_mem_nil, List.mem_singleton] at hl
    rw [hl] at hn
    cases hn
  | cons l p ih =>
    have flat : l.Flat := h l List.mem_cons_self
    rw [write_cons, splitOn_append_cons (l.lineFeed_notMem_text precision n flat)] at hl
    rcases List.mem_cons.1 hl with rfl | hl
    · cases l with
      | block b => exact ⟨b, by simp, n, rfl⟩
      | empty => cases hn
      | remark r => exact absurd (r.isAside_text.isNumbered_eq_false.symm.trans hn) (by decide)
    · obtain ⟨b, hb, k, hk⟩ := ih (fun m hm => h m (List.mem_cons_of_mem l hm)) hl
      refine ⟨b, ?_, k, hk⟩
      rw [blocks, List.filterMap_cons]
      cases l.block? with
      | none => exact hb
      | some other => exact List.mem_cons_of_mem other hb

end Gcode

namespace Conversion

open Excellon Gcode

/-! ## The blocks of a conversion -/

theorem natAbs_le_of_leadingInteger {t : Text} {i : Int} (h : leadingInteger t = some i) :
    i.natAbs ≤ greatestMagnitude := by
  obtain ⟨-, bound, rfl⟩ := leadingInteger_eq_some_iff.1 h
  unfold signed
  split_ifs <;> simpa using bound

/-- The coordinates of a hole have at most 63 bits. -/
theorem finitePosition_of_coordinatePair {line : Text} {x y : Int}
    (h : coordinatePair line = some (x, y)) : FinitePosition x y := by
  unfold coordinatePair at h
  split_ifs at h
  unfold Action.coordinates at h
  split at h
  · split_ifs at h
    obtain ⟨i, hi, h⟩ := Option.bind_eq_some_iff.1 h
    obtain ⟨j, hj, h⟩ := Option.map_eq_some_iff.1 h
    cases h
    exact ⟨isFinite_hundredThousandths (natAbs_le_of_leadingInteger hi),
      isFinite_hundredThousandths (natAbs_le_of_leadingInteger hj)⟩
  · cases h

/-- The blocks that a line adds to a program are proper, if its hole is one of finite
coordinates. -/
theorem proper_program {s : Settings} (hs : s.Admissible) (state : State) (line : Text)
    {a : Action} (ha : ∀ x y, a = .drill x y → FinitePosition x y) :
    ∀ b ∈ blocks (state.program s.drilling line a), b.Proper s.drilling.feedRate := by
  cases a with
  | drill x y =>
    have position := ha x y rfl
    cases due : state.cycleDue with
    | true =>
      rw [program_drill_of_cycleDue s.drilling line x y due]
      simp only [blocks_cons_block, blocks_nil, List.forall_mem_cons]
      exact ⟨position, hs.safe_finite, hs.feed_finite, ⟨position, hs.bottom_finite, hs.feed_finite,
        rfl, hs.feedRate_finite, hs.feedRate_units_pos⟩, fun _ h => absurd h List.not_mem_nil⟩
    | false =>
      rw [program_drill_of_not_cycleDue s.drilling line x y due]
      simp only [blocks_cons_block, blocks_nil, List.forall_mem_cons]
      exact ⟨position, fun _ h => absurd h List.not_mem_nil⟩
  | selectTool tool => simpa [State.program, Block.Proper] using hs.spindle_ne_zero
  | _ => simp [State.program, Block.Proper]

/-- **Every block of a conversion is proper.** -/
theorem proper_convertLines {s : Settings} (hs : s.Admissible) (ls : List Text) :
    ∀ b ∈ blocks (convertLines s ls).program, b.Proper s.drilling.feedRate := by
  induction ls using List.reverseRecOn with
  | nil => exact fun _ h => absurd h List.not_mem_nil
  | append_singleton ls line ih =>
    rw [convertLines_concat]
    simp only [blocks_append]
    intro b hb
    rcases List.mem_append.1 hb with hb | hb
    · exact ih b hb
    · refine proper_program hs _ _ (fun x y ha => ?_) b hb
      exact finitePosition_of_coordinatePair (Action.ofLine_eq_drill_iff.1 ha).2

/-- **Numbered lines are well formed.** Where settings are admissible, every line of a converted
document that begins with `N` goes on with a number and one blank, and what stands behind it is in
the grammar of blocks, with the feed rate of the settings. No plus sign gets into such a line. -/
theorem wellFormed_of_isNumbered {s : Settings} (hs : s.check = .ok s) {document line : Text}
    (hl : line ∈ splitOn '\n' (convertText s document).1) (hn : isNumbered line = true) :
    ∃ n number body, line = 'N' :: number ++ ' ' :: body ∧ WritesNat n number ∧
      WellFormed s.drilling.feedRate body ∧ '+' ∉ line := by
  have admissible := Settings.check_eq_ok_iff.1 hs
  obtain ⟨b, hb, k, rfl⟩ := exists_block_of_isNumbered
    (flat_convertLines s fun _ => Text.notMem_of_mem_lines) hl hn
  have proper := proper_convertLines admissible _ b hb
  have number := writesNat_digits (10 * (k + 1))
  have body := b.wellFormed_text s.output.precision proper
  refine ⟨_, _, _, rfl, number, body, ?_⟩
  simp [Line.text, plus_notMem_of_isDigit number.digit, body.plus_notMem]

theorem wellFormed_first_cycle :
    let line := "N100 G98 G81 X0.00001 Y0.00001 Z-0.0725 R0.2 F10.".toList
    ({} : Settings).check = .ok {} ∧
      line ∈ splitOn '\n' (convertText {} "T1\nX1Y1\n".toList).1 ∧ isNumbered line = true ∧
      ∃ n number body, line = 'N' :: number ++ ' ' :: body ∧ WritesNat n number ∧
        WellFormed ({} : Drilling).feedRate body ∧ '+' ∉ line := by
  have hv : ({} : Settings).violation = none := by decide +kernel
  have hs : ({} : Settings).check = .ok {} := by simp [Settings.check, hv]
  have hl : "N100 G98 G81 X0.00001 Y0.00001 Z-0.0725 R0.2 F10.".toList ∈
      splitOn '\n' (convertText {} "T1\nX1Y1\n".toList).1 := by decide +kernel
  exact ⟨hs, hl, rfl, wellFormed_of_isNumbered hs hl rfl⟩

end Conversion

end DrillPost
