import DrillPost.Proofs.Conversion.Joined
import DrillPost.Proofs.Text.Closed

/-!
# Documents in parts

A document that is cut behind a line end may be converted part by part: what is kept from one line
to the next is all that the second part has to know of the first one. The parts' texts and events
stand one after the other, whatever was converted before them.

* `Contribution`, `contribution`: what comes of a text behind others;
* `contribution_append_eq`: a text in two parts;
* `contribution_append`: the same for its text, state, summary and events.
-/

namespace DrillPost.Conversion

/-- What comes of a text that is converted behind others. -/
structure Contribution where
  /-- State and counts behind the text. -/
  progress : Progress
  /-- What it adds to the program. -/
  text : Text
  /-- What a listener hears of it. -/
  events : List Event

variable (s : Settings) (p : Progress)

/-- The conversion of a text behind others. -/
def contribution (t : Text) : Contribution :=
  let r := run s.drilling p (Text.lines t)
  ⟨r.progress, r.text s.output p, r.events⟩

/-- A document is a text behind nothing. -/
theorem convertText_eq_contribution (document : Text) :
    convertText s document =
      ((contribution s {} document).text, (contribution s {} document).progress.summary) := rfl

/-- A text whose first part is closed comes in two parts. -/
theorem contribution_append_eq {front : Text} (h : Closed '\n' front) (rest : Text) :
    contribution s p (front ++ rest) =
      let first := contribution s p front
      let second := contribution s first.progress rest
      ⟨second.progress, first.text ++ second.text, first.events ++ second.events⟩ := by
  simp only [contribution, Text.lines_append h, text_run_append]
  simp only [run_append]

/-- **A document may be converted in parts** that end with line ends. Behind any progress, the first
part and then the rest add the same text to the program as both together, end in the same state with
the same summary, and cause the same events in the same order. So what comes of a document's first
part stands at the beginning of what comes of the document. -/
theorem contribution_append {front : Text} (h : Closed '\n' front) (rest : Text) :
    let first := contribution s p front
    let second := contribution s first.progress rest
    let whole := contribution s p (front ++ rest)
    whole.text = first.text ++ second.text ∧
      whole.progress.state = second.progress.state ∧
      whole.progress.summary = second.progress.summary ∧
      whole.events = first.events ++ second.events ∧
      (convertText s front).1 <+: (convertText s (front ++ rest)).1 := by
  intro first second whole
  have joined : whole = _ := contribution_append_eq s p h rest
  refine ⟨congrArg Contribution.text joined, ?_, ?_, congrArg Contribution.events joined, ?_⟩
  · exact congrArg (·.progress.state) joined
  · exact congrArg (·.progress.summary) joined
  · rw [convertText_eq_contribution, convertText_eq_contribution, contribution_append_eq s {} h]
    exact List.prefix_append _ _

/-- A tool is selected in one part, and the cycle starts in the other, which lacks its line end. -/
theorem contribution_append_tool_hole :
    let front := "M48\r\nT1C0.8\r\n%\r\nT1\r\n".toList
    let rest := "X1Y2".toList
    let p := (contribution {} {} "M71\n".toList).progress
    let first := contribution {} p front
    let second := contribution {} first.progress rest
    Closed '\n' front ∧
      second.progress.state = ⟨false, some 1, false, 13⟩ ∧
      (contribution {} p (front ++ rest)).text = first.text ++ second.text := by
  intro front rest p first second
  have closed : Closed '\n' front := .inr (by decide)
  exact ⟨closed, by decide, (contribution_append {} p closed rest).1⟩

end DrillPost.Conversion
