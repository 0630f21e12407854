import DrillPost.Proofs.Conversion.LineByLine
import Mathlib

/-!
# The warnings of a conversion

Every line that is rejected gives one warning, which says where the line stands and quotes it
without the blanks at its ends. The warnings are recorded in the order of the lines, and a listener
hears of the same ones in the same order.

* `warningAt`: the warning that a line gives behind others;
* `warnings_convertLines`, `warnings_events`: the warnings that are recorded, and those that are
  heard;
* `Located`: a warning that says which line of a document it is about (`located_convertLines`);
* `MalformedAt`, `malformedCount_pos_iff`: the lines that a strict conversion does not accept.
-/

namespace DrillPost.Conversion

open Excellon

/-! ## The warning of a line -/

/-- The warning that an action gives at a line. -/
def warningOf (lineNumber : Nat) (line : Text) : Action → Option Warning
  | .reject anomaly => some ⟨lineNumber, anomaly, line⟩
  | _ => none

/-- The warning that a line gives behind others. -/
def warningAt (earlier : List Text) (line : Text) : Option Warning :=
  warningOf (earlier.length + 1) (Text.trim line) (actionAt earlier line)

theorem warningOf_eq_some_iff {n : Nat} {line : Text} {a : Action} {w : Warning} :
    warningOf n line a = some w ↔
      w.lineNumber = n ∧ w.line = line ∧ a = .reject w.anomaly := by
  obtain ⟨m, anomaly, text⟩ := w
  cases a with
  | reject other =>
    simp only [warningOf, Option.some.injEq, Warning.mk.injEq, Action.reject.injEq]
    constructor
    · rintro ⟨rfl, rfl, rfl⟩
      exact ⟨rfl, rfl, rfl⟩
    · rintro ⟨rfl, rfl, rfl⟩
      exact ⟨rfl, rfl, rfl⟩
  | _ => simp [warningOf]

/-- The warning that a listener hears of. -/
def Event.warning? : Event → Option Warning
  | .warned w => some w
  | _ => none

theorem filterMap_warning?_ofAction (n : Nat) (line : Text) (a : Action) :
    (Event.ofAction n line a).toList.filterMap Event.warning? = (warningOf n line a).toList := by
  cases a <;> rfl

theorem warnings_next (t : Tally) (line : Text) (a : Action) :
    (t.next line a).warnings.toList =
      t.warnings.toList ++ (warningOf (t.linesRead + 1) line a).toList := by
  cases a with
  | reject anomaly => exact Array.toList_push
  | _ => exact (List.append_nil _).symm

/-! ## The warnings of all lines -/

variable (s : Settings)

theorem linesRead_convertLines (ls : List Text) :
    (convertLines s ls).progress.tally.linesRead = ls.length :=
  (linesRead_run s.drilling {} ls).trans (Nat.zero_add _)

/-- **The warnings that are recorded** are those of the lines, in order. -/
theorem warnings_convertLines (ls : List Text) :
    (convertLines s ls).progress.tally.warnings.toList =
      (eachLine warningAt [] ls).reduceOption := by
  induction ls using List.reverseRecOn with
  | nil => rfl
  | append_singleton ls line ih =>
    rw [convertLines_concat, eachLine_concat, List.reduceOption_append,
      List.reduceOption_singleton, ← ih]
    simp only [warnings_next, linesRead_convertLines, warningAt]

/-- **The warnings that are heard** are those that are recorded. -/
theorem warnings_events (ls : List Text) :
    (convertLines s ls).events.filterMap Event.warning? =
      (convertLines s ls).progress.tally.warnings.toList := by
  induction ls using List.reverseRecOn with
  | nil => rfl
  | append_singleton ls line ih =>
    rw [convertLines_concat]
    simp only [List.filterMap_append, ih, warnings_next, Tally.linesRead_next,
      filterMap_warning?_ofAction]

/-- **Where a warning comes from**: from the line with its number, which is rejected behind the
lines in front of it. -/
theorem mem_warnings_convertLines_iff {ls : List Text} {w : Warning} :
    w ∈ (convertLines s ls).progress.tally.warnings.toList ↔
      ∃ before line after, ls = before ++ line :: after ∧ w.lineNumber = before.length + 1 ∧
        w.line = Text.trim line ∧ actionAt before line = .reject w.anomaly := by
  rw [warnings_convertLines, List.reduceOption_mem_iff, mem_eachLine_iff]
  simp only [warningAt, warningOf_eq_some_iff]

/-- A warning that says which of some lines it is about: it quotes the line with its number, without
the blanks at the two ends. -/
def Located (ls : List Text) (w : Warning) : Prop :=
  1 ≤ w.lineNumber ∧ w.lineNumber ≤ ls.length ∧
    (ls[w.lineNumber - 1]?).map Text.trim = some w.line

theorem located_convertLines {ls : List Text} {w : Warning}
    (h : w ∈ (convertLines s ls).progress.tally.warnings.toList) : Located ls w := by
  obtain ⟨before, line, after, rfl, number, text, -⟩ := (mem_warnings_convertLines_iff s).1 h
  refine ⟨by omega, by simp [number], ?_⟩
  rw [number, text, Nat.add_sub_cancel, List.getElem?_append_right le_rfl]
  simp

/-- The line numbers of the warnings go up. -/
theorem pairwise_warnings_convertLines (ls : List Text) :
    (convertLines s ls).progress.tally.warnings.toList.Pairwise
      (·.lineNumber < ·.lineNumber) := by
  induction ls using List.reverseRecOn with
  | nil => exact .nil
  | append_singleton ls line ih =>
    rw [convertLines_concat]
    simp only [warnings_next, linesRead_convertLines]
    cases hv : warningOf (ls.length + 1) (Text.trim line) (actionAt ls line) with
    | none => simpa using ih
    | some v =>
      have last : v.lineNumber = ls.length + 1 := (warningOf_eq_some_iff.1 hv).1
      refine List.pairwise_append.2 ⟨ih, List.pairwise_singleton _ v, fun w hw u hu => ?_⟩
      have earlier : w.lineNumber ≤ ls.length := (located_convertLines s hw).2.1
      obtain rfl := List.mem_singleton.1 hu
      omega

/-! ## Malformed numbers -/

/-- A line with a malformed number behind others: it stands outside the header, and is a tool line
without a tool number or a coordinate line without a pair of numbers. -/
def MalformedAt (earlier : List Text) (line : Text) : Prop :=
  insideHeader earlier = false ∧
    ((Text.trim line).head? = some 'T' ∧ toolNumber line = none ∨
      ((Text.trim line).head? = some 'X' ∨ (Text.trim line).head? = some 'Y') ∧
        coordinatePair line = none)

theorem malformedCount_pos_iff (ls : List Text) :
    0 < (convertLines s ls).progress.tally.malformedCount ↔
      ∃ before line after, ls = before ++ line :: after ∧ MalformedAt before line := by
  rw [Tally.malformedCount, Array.countP_pos_iff]
  constructor
  · rintro ⟨w, hw, anomaly⟩
    obtain ⟨before, line, after, split, -, -, rejected⟩ :=
      (mem_warnings_convertLines_iff s).1 (Array.mem_toList_iff.2 hw)
    rw [beq_iff_eq] at anomaly
    rw [anomaly] at rejected
    exact ⟨before, line, after, split, Action.ofLine_eq_malformedNumber_iff.1 rejected⟩
  · rintro ⟨before, line, after, split, h⟩
    have rejected : actionAt before line = .reject .malformedNumber :=
      Action.ofLine_eq_malformedNumber_iff.2 h
    let w : Warning := ⟨before.length + 1, .malformedNumber, Text.trim line⟩
    have hw : w ∈ (convertLines s ls).progress.tally.warnings.toList :=
      (mem_warnings_convertLines_iff s).2 ⟨before, line, after, split, rfl, rfl, rejected⟩
    exact ⟨w, Array.mem_toList_iff.1 hw, rfl⟩

end DrillPost.Conversion
