import DrillPost.Proofs.Conversion.Rules
import DrillPost.Proofs.Gcode.Diagnostics
import DrillPost.Proofs.Text.Trimming

/-!
# Small and capital letters

The first character of a line counts as it is written; behind it, small letters of the ASCII
alphabet stand for capital ones. So two lines that differ only in these do the same, and what comes
of them is the same, but for a quotation: a line that is rejected is quoted as it is written.

* `SameLetters`: lines that differ at most in the case of their letters
  (`SameLetters.ofLine_eq`: they stand for the same action);
* `refusal`: what comes of a line that is rejected (`step_eq_refusal`);
* `atOffset_normalize`, `pairAtOffset_normalize`: the fields of a line and of its upper case;
* `step_of_sameLetters`: what comes of two such lines.
-/

namespace DrillPost.Excellon

/-- Lines that begin with the same character and are the same in upper case, blanks at their ends
aside. -/
structure SameLetters (line other : Text) : Prop where
  first : (Text.trim line).head? = (Text.trim other).head?
  upper : Text.upper (Text.trim line) = Text.upper (Text.trim other)

/-- Such lines stand for the same action, inside the header and behind it. -/
theorem SameLetters.ofLine_eq {line other : Text} (h : SameLetters line other) (inHeader : Bool) :
    Action.ofLine inHeader line = Action.ofLine inHeader other := by
  have fields : Text.normalize line = Text.normalize other := h.upper
  cases first : (Text.trim line).head? with
  | none =>
    have blank : Text.trim line = [] := List.head?_eq_none_iff.1 first
    have blank' : Text.trim other = [] := List.head?_eq_none_iff.1 (h.first ▸ first)
    rw [Action.ofLine, Action.ofLine, blank, blank']
  | some c =>
    rw [Action.ofLine_of_head first, Action.ofLine_of_head (h.first ▸ first), fields]

namespace Field

/-- The fields of a line are those of its upper case, at whatever octet they begin. -/
theorem atOffset_normalize (line : Text) (offset : Nat) :
    atOffset (Text.normalize line) offset = atOffset line offset := by
  rw [atOffset, atOffset, Text.normalize_normalize]

theorem pairAtOffset_normalize (line : Text) (offset : Nat) :
    pairAtOffset (Text.normalize line) offset = pairAtOffset line offset := by
  rw [pairAtOffset, pairAtOffset, Text.normalize_normalize]

end Field

end DrillPost.Excellon

namespace DrillPost.Conversion

open Excellon

/-! ## What comes of a line -/

/-- What comes of a line that is rejected behind some progress: one more line read, a warning, and a
remark, both of which quote the line. -/
def refusal (p : Progress) (anomaly : Anomaly) (line : Text) : Result :=
  let number := p.tally.linesRead + 1
  let warning : Warning := ⟨number, anomaly, line⟩
  { progress :=
      ⟨p.state, { p.tally with linesRead := number, warnings := p.tally.warnings.push warning }⟩
    program := [.remark (.rejected anomaly line)]
    events := [.warned warning] }

/-- The text of the remark around the quotation depends on the anomaly alone. -/
theorem text_refusal (o : Output) (p : Progress) (anomaly : Anomaly) (line : Text) :
    (refusal p anomaly line).text o p =
      Gcode.opening anomaly ++ (line ++ Gcode.closing anomaly) ++ ['\n'] := by
  rw [← Gcode.Remark.text_rejected]
  exact Gcode.write_cons _ _ _ _

section

variable (d : Drilling) (p : Progress)

/-- What comes of a line is what comes of its action. -/
theorem step_eq_ofAction (line : Text) :
    step d p line =
      .ofAction d p (Text.trim line) (Action.ofLine p.state.inHeader line) := by
  obtain ⟨state, tally⟩ := p
  simp only [step, Result.ofAction, Tally.linesRead_next]

theorem ofAction_reject (line : Text) (anomaly : Anomaly) :
    Result.ofAction d p line (.reject anomaly) = refusal p anomaly line := rfl

/-- Only a rejected line is quoted. -/
theorem ofAction_congr {a : Action} (h : ∀ anomaly, a ≠ .reject anomaly) (line other : Text) :
    Result.ofAction d p line a = .ofAction d p other a := by
  cases a with
  | reject anomaly => exact absurd rfl (h anomaly)
  | _ => rfl

theorem step_eq_refusal {line : Text} {anomaly : Anomaly}
    (h : Action.ofLine p.state.inHeader line = .reject anomaly) :
    step d p line = refusal p anomaly (Text.trim line) := by
  rw [step_eq_ofAction, h, ofAction_reject]

end

variable (s : Settings) {line other : Text}

/-- **The case of letters does not matter** behind the first character of a line. Behind any
progress, two lines that differ only in it lead to the same state and the same counts, and what
comes of them is the same in all respects, unless they are rejected: then it is for the same reason,
and the warning, the event and the remark of each quote that line and agree in everything else. The
fields of a line are those of its upper case, from whatever octet they are read. -/
theorem step_of_sameLetters (h : SameLetters line other) (p : Progress) :
    let r := step s.drilling p line
    let r' := step s.drilling p other
    r'.progress.state = r.progress.state ∧
      r'.progress.tally =
        { r.progress.tally with warnings := r'.progress.tally.warnings } ∧
      (r' = r ∨ ∃ anomaly, r = refusal p anomaly (Text.trim line) ∧
        r' = refusal p anomaly (Text.trim other) ∧
        r.text s.output p =
          Gcode.opening anomaly ++ (Text.trim line ++ Gcode.closing anomaly) ++ ['\n'] ∧
        r'.text s.output p =
          Gcode.opening anomaly ++ (Text.trim other ++ Gcode.closing anomaly) ++ ['\n']) ∧
      ∀ offset,
        Field.atOffset (Text.normalize line) offset = Field.atOffset line offset ∧
          Field.pairAtOffset (Text.normalize line) offset = Field.pairAtOffset line offset := by
  intro r r'
  have fields (offset : Nat) := And.intro (Field.atOffset_normalize line offset)
    (Field.pairAtOffset_normalize line offset)
  have action := h.ofLine_eq p.state.inHeader
  by_cases rejected : ∃ anomaly, Action.ofLine p.state.inHeader line = .reject anomaly
  · obtain ⟨anomaly, ha⟩ := rejected
    have first : r = _ := step_eq_refusal s.drilling p ha
    have second : r' = _ := step_eq_refusal s.drilling p (action ▸ ha)
    rw [first, second]
    exact ⟨rfl, rfl, .inr ⟨anomaly, rfl, rfl, text_refusal s.output p anomaly _,
      text_refusal s.output p anomaly _⟩, fields⟩
  · have same : r' = r := by
      simp only [r, r', step_eq_ofAction, ← action]
      exact ofAction_congr s.drilling p (not_exists.1 rejected) _ _
    rw [same]
    exact ⟨rfl, rfl, .inl rfl, fields⟩

/-- A small letter in front of the second coordinate, and blanks at the end. -/
theorem step_small_letter :
    let line := "X1y2\u00e4".toList
    let other := "X1Y2\u00e4\t".toList
    SameLetters line other ∧
      (step {} {} other).progress.state = (step {} {} line).progress.state := by
  intro line other
  have same : SameLetters line other := ⟨by decide, by decide⟩
  exact ⟨same, (step_of_sameLetters {} same {}).1⟩

end DrillPost.Conversion
