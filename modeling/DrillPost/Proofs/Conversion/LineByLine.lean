import DrillPost.Proofs.Conversion.Joined
import Mathlib

/-!
# A conversion line by line

What a line of a document adds to the program is a function of the line and of those in front of
it, so the text of a conversion is a row of texts, one for each line. The row has no text for the
lines that are passed over, and for no others.

* `eachLine`: a value for each line of a list (`eachLine_concat`, `mem_eachLine_iff`);
* `text_convertLines`: the text of a conversion, put together from those of its lines;
* `PassedOver`: the lines without a text (`lineText_eq_nil_iff`).
-/

namespace DrillPost.Conversion

open Excellon

/-! ## A value for each line -/

section

variable {α : Type} (f : List Text → Text → α)

/-- The values of a function of a line and of those in front of it, for lines that follow others. -/
def eachLine (earlier : List Text) : List Text → List α
  | [] => []
  | line :: rest => f earlier line :: eachLine (earlier ++ [line]) rest

theorem eachLine_append (earlier ls ms : List Text) :
    eachLine f earlier (ls ++ ms) = eachLine f earlier ls ++ eachLine f (earlier ++ ls) ms := by
  induction ls generalizing earlier with
  | nil => simp [eachLine]
  | cons l ls ih => simp [eachLine, ih]

theorem eachLine_concat (ls : List Text) (line : Text) :
    eachLine f [] (ls ++ [line]) = eachLine f [] ls ++ [f ls line] := by
  rw [eachLine_append]
  rfl

@[simp] theorem length_eachLine (earlier ls : List Text) :
    (eachLine f earlier ls).length = ls.length := by
  induction ls generalizing earlier with
  | nil => rfl
  | cons l ls ih => simp [eachLine, ih]

/-- The value behind some lines. -/
theorem getElem?_eachLine (before : List Text) (line : Text) (after : List Text) :
    (eachLine f [] (before ++ line :: after))[before.length]? = some (f before line) := by
  rw [eachLine_append, List.getElem?_append_right (by simp)]
  simp [eachLine]

theorem mem_eachLine_iff {ls : List Text} {a : α} :
    a ∈ eachLine f [] ls ↔
      ∃ before line after, ls = before ++ line :: after ∧ f before line = a := by
  induction ls using List.reverseRecOn with
  | nil => simp [eachLine]
  | append_singleton ls last ih =>
    rw [eachLine_concat, List.mem_append, List.mem_singleton, ih]
    constructor
    · rintro (⟨before, line, after, rfl, ha⟩ | rfl)
      · exact ⟨before, line, after ++ [last], by simp, ha⟩
      · exact ⟨ls, last, [], rfl, rfl⟩
    · rintro ⟨before, line, after, h, ha⟩
      rcases concat_eq_append_cons_iff.1 h with ⟨rfl, rfl, -⟩ | ⟨after, -, rfl⟩
      · exact .inr ha.symm
      · exact .inl ⟨before, line, after, rfl, ha⟩

end

variable (s : Settings)

/-- The text of a conversion is put together from those of its lines. -/
theorem text_convertLines (ls : List Text) :
    (convertLines s ls).text s.output {} = (eachLine (lineText s) [] ls).flatten := by
  induction ls using List.reverseRecOn with
  | nil => rfl
  | append_singleton ls line ih =>
    rw [text_convertLines_concat, ih, eachLine_concat, List.flatten_concat]

/-! ## Lines without a text -/

/-- A line that is passed over behind others: a blank one, one that begins with a percent sign, or
one that begins with `X` or `Y` inside the header. -/
def PassedOver (earlier : List Text) (line : Text) : Prop :=
  Text.trim line = [] ∨ (Text.trim line).head? = some '%' ∨
    insideHeader earlier = true ∧
      ((Text.trim line).head? = some 'X' ∨ (Text.trim line).head? = some 'Y')

theorem passedOver_iff {earlier : List Text} {line : Text} :
    PassedOver earlier line ↔
      actionAt earlier line = .idle ∨ actionAt earlier line = .closeHeader := by
  simp only [PassedOver, actionAt, Action.ofLine_eq_idle_iff,
    Action.ofLine_eq_closeHeader_iff_head?]
  tauto

theorem program_eq_nil_iff (d : Drilling) (state : State) (line : Text) (a : Action) :
    state.program d line a = [] ↔ a = .idle ∨ a = .closeHeader := by
  cases a with
  | drill x y => cases h : state.cycleDue <;> simp [State.program, h]
  | _ => simp [State.program]

/-- **No other line is passed over.** -/
theorem lineText_eq_nil_iff {earlier : List Text} {line : Text} :
    lineText s earlier line = [] ↔ PassedOver earlier line := by
  rw [lineText_eq_write, Gcode.write_eq_nil_iff, program_eq_nil_iff, passedOver_iff]

end DrillPost.Conversion
