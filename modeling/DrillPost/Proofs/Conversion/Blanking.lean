import DrillPost.Proofs.Conversion.Reading
import DrillPost.Proofs.Conversion.Warnings
import DrillPost.Proofs.Text.Blanking
import Mathlib

/-!
# Rejected lines do not interfere

A rejected line leaves a warning and a remark, and nothing else. So some of the rejected lines of a
document can be blanked out, and the rest is converted as before: the state at the end, the numbers
of lines and blocks and all other texts, warnings and events are the same.

* `Tally.without`, `Event.concerns`: the counts without some warnings, and the events of these;
* `OnlyRejected`: lines that were all rejected;
* `convertLines_blanked`, `eachLine_blanked`: what becomes of a conversion when such lines are
  blanked out;
* `convertText_blankOut`: a document whose rejected lines are blanked out.
-/

namespace DrillPost.Conversion

open Excellon

/-! ## A conversion without some warnings -/

section

variable (chosen : Nat → Bool)

/-- The counts without the warnings about the chosen lines. -/
def Tally.without (t : Tally) : Tally :=
  { t with warnings := t.warnings.filter fun w => !chosen w.lineNumber }

/-- Whether an event is the warning about a chosen line. -/
def Event.concerns (e : Event) : Bool := e.warning?.any fun w => chosen w.lineNumber

variable {chosen} {t : Tally} (line : Text) (a : Action)

theorem without_next (h : chosen (t.linesRead + 1) = false) :
    (t.next line a).without chosen = (t.without chosen).next line a := by
  cases a with
  | reject anomaly => simp [Tally.next, Tally.without, h]
  | _ => rfl

/-- A rejected line counts like a blank one when its warning is left out. -/
theorem without_next_reject (anomaly : Anomaly) (h : chosen (t.linesRead + 1) = true)
    (blank : Text) :
    (t.next line (.reject anomaly)).without chosen = (t.without chosen).next blank .idle := by
  simp [Tally.next, Tally.without, h]

theorem filter_ofAction {n : Nat} (h : chosen n = false) :
    (Event.ofAction n line a).toList.filter (!·.concerns chosen) =
      (Event.ofAction n line a).toList := by
  cases a <;> simp [Event.ofAction, Event.concerns, Event.warning?, h]

theorem filter_ofAction_reject {n : Nat} (anomaly : Anomaly) (h : chosen n = true) :
    (Event.ofAction n line (.reject anomaly)).toList.filter (!·.concerns chosen) = [] := by
  simp [Event.ofAction, Event.concerns, Event.warning?, h]

end

/-! ## Rejected lines blanked out -/

/-- The chosen lines are among the rejected ones. -/
def OnlyRejected (chosen : Nat → Bool) (ls : List Text) : Prop :=
  ∀ before line after, ls = before ++ line :: after → chosen (before.length + 1) = true →
    ∃ anomaly, actionAt before line = .reject anomaly

/-- Lines, the chosen ones of which are blanked out. -/
def blanked (chosen : Nat → Bool) (ls : List Text) : List Text :=
  replaceAt chosen (fun _ => [' ']) ls

theorem onlyRejected_concat {chosen : Nat → Bool} {ls : List Text} {line : Text}
    (h : OnlyRejected chosen (ls ++ [line])) :
    OnlyRejected chosen ls ∧
      (chosen (ls.length + 1) = true → ∃ anomaly, actionAt ls line = .reject anomaly) := by
  refine ⟨fun before l after hl => h before l (after ++ [line]) ?_, h ls line [] rfl⟩
  rw [hl, List.append_assoc, List.cons_append]

variable (s : Settings) {chosen : Nat → Bool}

/-- Lines with a warning are rejected. -/
theorem onlyRejected_of_warnings {ls : List Text}
    (h : ∀ n, chosen n = true →
      ∃ w ∈ (convertLines s ls).progress.tally.warnings.toList, w.lineNumber = n) :
    OnlyRejected chosen ls := by
  intro before line after split hc
  obtain ⟨w, hw, number⟩ := h _ hc
  obtain ⟨front, l, rest, split', number', -, rejected⟩ := (mem_warnings_convertLines_iff s).1 hw
  have lengths : before.length = front.length := by omega
  obtain ⟨rfl, same⟩ := List.append_inj (split.symm.trans split') lengths
  obtain ⟨rfl, -⟩ := List.cons.inj same
  exact ⟨w.anomaly, rejected⟩

theorem actionAt_congr {ls ms : List Text} (line : Text)
    (h : (convertLines s ls).progress.state = (convertLines s ms).progress.state) :
    actionAt ls line = actionAt ms line := by
  rw [actionAt, actionAt, ← inHeader_convertLines s ls, ← inHeader_convertLines s ms, h]

theorem lineText_congr {ls ms : List Text} (line : Text)
    (h : (convertLines s ls).progress.state = (convertLines s ms).progress.state) :
    lineText s ls line = lineText s ms line := by
  rw [lineText_eq_write, lineText_eq_write, h, actionAt_congr s line h]

theorem actionAt_space (ls : List Text) : actionAt ls [' '] = .idle :=
  Action.ofLine_eq_idle_iff.2 (.inl rfl)

/-- **Blanking out rejected lines** leaves the state as it is, and takes away nothing but the
warnings about these lines. -/
theorem convertLines_blanked {ls : List Text} (h : OnlyRejected chosen ls) :
    (convertLines s (blanked chosen ls)).progress.state = (convertLines s ls).progress.state ∧
      (convertLines s (blanked chosen ls)).progress.tally =
        (convertLines s ls).progress.tally.without chosen ∧
      (convertLines s (blanked chosen ls)).events =
        (convertLines s ls).events.filter (!·.concerns chosen) := by
  induction ls using List.reverseRecOn with
  | nil => exact ⟨rfl, rfl, rfl⟩
  | append_singleton ls line ih =>
    obtain ⟨earlier, rejected⟩ := onlyRejected_concat h
    obtain ⟨state, tally, events⟩ := ih earlier
    have number : (convertLines s ls).progress.tally.linesRead + 1 = ls.length + 1 := by
      rw [linesRead_convertLines]
    rw [blanked, replaceAt_concat, ← blanked, convertLines_concat, convertLines_concat]
    -- A chosen line takes its warning away; any other line does what it did, since it stands where
    -- it stood in the same state.
    cases hc : chosen (ls.length + 1) with
    | true =>
      obtain ⟨anomaly, ha⟩ := rejected hc
      rw [← number] at hc
      simp only [if_true, actionAt_space, ha, state, tally, events]
      refine ⟨rfl, (without_next_reject _ anomaly hc _).symm, ?_⟩
      simp only [List.filter_append, Tally.linesRead_next, filter_ofAction_reject _ anomaly hc]
      rfl
    | false =>
      rw [← number] at hc
      simp only [Bool.false_eq_true, if_false, actionAt_congr s line state, state, tally, events]
      refine ⟨trivial, (without_next _ _ hc).symm, ?_⟩
      simp only [List.filter_append, Tally.linesRead_next, filter_ofAction _ _ hc]
      rfl

/-- The texts of the lines that are blanked out are missing, and all others stay. -/
theorem eachLine_blanked {ls : List Text} (h : OnlyRejected chosen ls) :
    eachLine (lineText s) [] (blanked chosen ls) =
      replaceAt chosen (fun _ => []) (eachLine (lineText s) [] ls) := by
  induction ls using List.reverseRecOn with
  | nil => rfl
  | append_singleton ls line ih =>
    obtain ⟨earlier, -⟩ := onlyRejected_concat h
    obtain ⟨state, -, -⟩ := convertLines_blanked s earlier
    rw [blanked, replaceAt_concat, ← blanked, eachLine_concat, eachLine_concat, replaceAt_concat,
      ih earlier, length_eachLine]
    cases hc : chosen (ls.length + 1) with
    | true =>
      have silent : lineText s (blanked chosen ls) [' '] = [] :=
        (lineText_eq_nil_iff s).2 (.inl rfl)
      simp only [if_true, silent]
    | false => simp only [Bool.false_eq_true, if_false, lineText_congr s line state]

/-- A rejected line adds the remark that quotes it. -/
theorem lineText_of_reject {before : List Text} {line : Text} {anomaly : Anomaly}
    (h : actionAt before line = .reject anomaly) :
    lineText s before line =
      (Gcode.Remark.rejected anomaly (Text.trim line)).text ++ ['\n'] := by
  rw [lineText_eq_write, h]
  exact Gcode.write_cons _ _ _ _

/-- The text of a line with a warning is the remark that says the same. -/
theorem getElem?_eachLine_of_warning {ls : List Text} {w : Warning}
    (h : w ∈ (convertLines s ls).progress.tally.warnings.toList) :
    (eachLine (lineText s) [] ls)[w.lineNumber - 1]? =
      some ((Gcode.Remark.rejected w.anomaly w.line).text ++ ['\n']) := by
  obtain ⟨before, line, after, rfl, number, quoted, rejected⟩ :=
    (mem_warnings_convertLines_iff s).1 h
  rw [number, Nat.add_sub_cancel, getElem?_eachLine, lineText_of_reject s rejected, quoted]

/-- The remark stays on its line when the lines hold no line feed. -/
theorem lineFeed_notMem_remark {ls : List Text} (flat : ∀ line ∈ ls, '\n' ∉ line) {w : Warning}
    (h : w ∈ (convertLines s ls).progress.tally.warnings.toList) :
    '\n' ∉ (Gcode.Remark.rejected w.anomaly w.line).text := by
  obtain ⟨before, line, after, rfl, -, quoted, -⟩ := (mem_warnings_convertLines_iff s).1 h
  have hline : '\n' ∉ line := flat line (by simp)
  rw [quoted]
  exact Gcode.Remark.lineFeed_notMem_text fun hm => hline (Text.mem_of_mem_trim hm)

/-- **Rejected lines do not interfere with the rest.** When some lines of a document that have
warnings are blanked out, the conversion ends in the same state; the summary is the same but for
the warnings about these lines, and so are the events; and of the texts that the lines of the
document add to the program, these lines' are missing, which are one remark each. -/
theorem convertText_blankOut (document : Text)
    (h : ∀ n, chosen n = true →
      ∃ w ∈ (convertText s document).2.warnings.toList, w.lineNumber = n) :
    let ls := Text.lines document
    let ms := Text.lines (blankOut chosen document)
    let texts := eachLine (lineText s) [] ls
    (convertLines s ms).progress.state = (convertLines s ls).progress.state ∧
      (convertText s (blankOut chosen document)).2 =
        { (convertText s document).2 with
          warnings := (convertText s document).2.warnings.filter fun w => !chosen w.lineNumber } ∧
      (convertLines s ms).events = (convertLines s ls).events.filter (!·.concerns chosen) ∧
      (convertText s document).1 = texts.flatten ∧
      (convertText s (blankOut chosen document)).1 =
        (replaceAt chosen (fun _ => []) texts).flatten ∧
      ∀ w ∈ (convertText s document).2.warnings.toList,
        texts[w.lineNumber - 1]? =
            some ((Gcode.Remark.rejected w.anomaly w.line).text ++ ['\n']) ∧
          '\n' ∉ (Gcode.Remark.rejected w.anomaly w.line).text := by
  intro ls ms texts
  have blank : ms = blanked chosen ls := lines_blankOut chosen document
  have rejected : OnlyRejected chosen ls := onlyRejected_of_warnings s h
  obtain ⟨state, tally, events⟩ := convertLines_blanked s rejected
  rw [← blank] at state tally events
  refine ⟨state, ?_, events, text_convertLines s ls, ?_, fun w hw =>
    ⟨getElem?_eachLine_of_warning s hw,
      lineFeed_notMem_remark s (fun _ => Text.notMem_of_mem_lines) hw⟩⟩
  · change (convertLines s ms).progress.summary = _
    rw [Progress.summary, state, tally]
    rfl
  · rw [← eachLine_blanked s rejected, ← blank]
    exact text_convertLines s ms

/-- One rejected line between a tool and its hole. -/
theorem convertText_blankOut_second :
    let document := "T1\nG05\nX1Y2\n".toList
    let chosen := fun n : Nat => n == 2
    (∀ n, chosen n = true →
        ∃ w ∈ (convertText {} document).2.warnings.toList, w.lineNumber = n) ∧
      blankOut chosen document = "T1\n \nX1Y2\n".toList ∧
      (convertText {} (blankOut chosen document)).1 =
        (replaceAt chosen (fun _ => [])
          (eachLine (lineText {}) [] (Text.lines document))).flatten := by
  intro document chosen
  have warned : ∀ n, chosen n = true →
      ∃ w ∈ (convertText {} document).2.warnings.toList, w.lineNumber = n := by
    intro n hn
    obtain rfl : n = 2 := by simpa [chosen] using hn
    exact ⟨⟨2, .unrecognizedCode, "G05".toList⟩, by decide, rfl⟩
  obtain ⟨-, -, -, -, gcode, -⟩ := convertText_blankOut {} document warned
  exact ⟨warned, by decide, gcode⟩

end DrillPost.Conversion
