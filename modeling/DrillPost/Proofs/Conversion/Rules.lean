import DrillPost.Proofs.Conversion.Cycles
import DrillPost.Proofs.Excellon.Grammar

/-!
# One rule for each line

Wherever a conversion stands, the grammar has one rule for the next line, and the rule says what
comes of it: nothing but one more line read, the end of the header, or what its action does.

* `Result.ofAction`, `Result.ofRule`: what comes of an action, and of a rule
  (`step_eq_ofRule`: what comes of a line);
* `ruleText`: what a rule writes (`text_ofRule`);
* `existsUnique_accepts`: each line is accepted by one rule, which says what comes of it.
-/

namespace DrillPost.Conversion

open Excellon Gcode

variable (d : Drilling) (p : Progress)

/-- What comes of a trimmed line that stands for an action. -/
def Result.ofAction (line : Text) (a : Action) : Result where
  progress := ⟨p.state.next a, p.tally.next line a⟩
  program := p.state.program d line a
  events := (Event.ofAction (p.tally.linesRead + 1) line a).toList

/-- What is counted when a line is passed over: that it was read. -/
def Tally.passed (t : Tally) : Tally := { t with linesRead := t.linesRead + 1 }

/-- What comes of a trimmed line that a rule accepts. -/
def Result.ofRule (line : Text) : Rule → Result
  | .blank | .headerCoordinates => ⟨⟨p.state, p.tally.passed⟩, [], []⟩
  | .percent => ⟨⟨{ p.state with inHeader := false }, p.tally.passed⟩, [], []⟩
  | .programEnd => .ofAction d p line .endProgram
  | .headerStart => .ofAction d p line .openHeader
  | .unitCode unit => .ofAction d p line (.setUnit unit)
  | .unknownCode => .ofAction d p line (.reject .unknownMachineCode)
  | .toolDefinition number diameter => .ofAction d p line (.defineTool number diameter)
  | .toolChange tool => .ofAction d p line (.selectTool tool)
  | .malformedTool | .malformedCoordinates => .ofAction d p line (.reject .malformedNumber)
  | .hole x y => .ofAction d p line (.drill x y)
  | .otherLetter => .ofAction d p line (.reject .unrecognizedCode)

theorem ofRule_eq_ofAction (line : Text) (rule : Rule) :
    Result.ofRule d p line rule = .ofAction d p line rule.action := by
  cases rule <;> rfl

/-- What comes of a line is what its rule says. -/
theorem step_eq_ofRule {line : Text} {rule : Rule} (h : rule.Accepts p.state.inHeader line) :
    step d p line = .ofRule d p (Text.trim line) rule := by
  obtain ⟨state, tally⟩ := p
  rw [ofRule_eq_ofAction, ← h.ofLine_eq, step, Result.ofAction]
  simp only [Tally.linesRead_next]

/-! ## What rules write -/

/-- What a rule writes for a trimmed line behind `n` blocks: the words of the blocks on numbered
lines, and what is said to the reader in front of them. -/
def ruleText (s : Settings) (cycleDue : Bool) (n : Nat) (line : Text) : Rule → Text
  | .blank | .percent | .headerCoordinates => []
  | .programEnd =>
    '\n' :: ("( --------- PROGRAM END --------- )".toList ++ '\n' ::
      numberedLines n
        [["M5".toList, "(Spindle".toList, "Stop)".toList],
          ["M9".toList, "(Coolant".toList, "Off)".toList],
          ["G30".toList, "(Go".toList, "Home)".toList], ["M30".toList, "(END)".toList]])
  | .headerStart =>
    "( --------------------------------------------------------)".toList ++ '\n' ::
      ("( ------------ EXCELLON TO GCODE CONVERTER ---------------)".toList ++ '\n' ::
        ("( --------------------------------------------------------)".toList ++ '\n' ::
          numberedLines n
            [["G90".toList, "G54".toList, "G64".toList, "G50".toList, "G17".toList, "G40".toList,
                "G80".toList, "G94".toList, "G91.1".toList, "G49".toList], ["G30".toList]]))
  | .unitCode .metric => numberedLines n [["G21".toList, "(METRIC)".toList]] ++ ['\n']
  | .unitCode .imperial => numberedLines n [["G20".toList, "(INCHES)".toList]] ++ ['\n']
  | .unknownCode => "(-- Unknown MCode: ".toList ++ line ++ [')'] ++ ['\n']
  | .toolDefinition number diameter =>
    "(T:".toList ++ number ++ " Diameter: ".toList ++ diameter ++ " )".toList ++ ['\n']
  | .toolChange tool =>
    '\n' :: ("( --------- DRILL T".toList ++ Number.digits tool.toNat ++
      " --------- )".toList ++ '\n' ::
      numberedLines n
        [["M5".toList, "(Spindle".toList, "Stop)".toList],
          ["M9".toList, "(Coolant".toList, "Off)".toList],
          ["G30".toList, "(Go".toList, "Home)".toList],
          ['T' :: Number.digits tool.toNat, "G43".toList, 'H' :: Number.digits tool.toNat,
            "M6".toList, "(Tool".toList, "Change)".toList],
          ['S' :: Number.digits s.drilling.spindleSpeed.toNat, "M3".toList, "(Spindle".toList,
            "Start)".toList],
          ["G54".toList]])
  | .malformedTool | .malformedCoordinates =>
    "(-- Malformed numeric field: ".toList ++ line ++ [')'] ++ ['\n']
  | .hole x y => numberedLines n (if cycleDue then cycleRows s x y else moveRows s x y)
  | .otherLetter => "; Unknown Code: ".toList ++ line ++ ['\n']

theorem write_remark (precision : Option Nat) (n : Nat) (r : Remark) (q : Program) :
    write precision n (.remark r :: q) = r.text ++ '\n' :: write precision n q := write_cons ..

theorem write_empty (precision : Option Nat) (n : Nat) (q : Program) :
    write precision n (.empty :: q) = '\n' :: write precision n q := write_cons ..

/-- **What a rule writes**, by the words of its lines. -/
theorem text_ofRule (o : Output) (line : Text) (rule : Rule) :
    (Result.ofRule d p line rule).text o p =
      ruleText ⟨d, o⟩ p.state.cycleDue p.state.blocks line rule := by
  have written (bs : List Block) := write_map_block o.precision p.state.blocks bs
  rw [ofRule_eq_ofAction, Result.text, Result.ofAction]
  cases rule with
  | blank | percent | headerCoordinates => rfl
  | unknownCode | malformedTool | malformedCoordinates | otherLetter => exact write_remark ..
  | toolDefinition number diameter => exact write_remark ..
  | programEnd =>
    have rows := written [.spindleStop, .coolantOff, .goHome, .programStop]
    simp only [List.map_cons, List.map_nil] at rows
    unfold ruleText
    simp only [Rule.action, State.program, write_empty, write_remark, rows]
    rfl
  | headerStart =>
    have rows := written [.preamble, .home]
    simp only [List.map_cons, List.map_nil] at rows
    unfold ruleText
    simp only [Rule.action, State.program, write_remark, rows]
    rfl
  | unitCode unit =>
    cases unit with
    | metric => exact (write_append _ _ [_] _).trans (congrArg (· ++ _) (written [.unit .metric]))
    | imperial =>
      exact (write_append _ _ [_] _).trans (congrArg (· ++ _) (written [.unit .imperial]))
  | toolChange tool =>
    have rows := written [.spindleStop, .coolantOff, .goHome, .toolChange tool,
      .spindleStart d.spindleSpeed, .workOffset]
    simp only [List.map_cons, List.map_nil] at rows
    unfold ruleText
    simp only [Rule.action, State.program, write_empty, write_remark, rows]
    rfl
  | hole x y =>
    cases due : p.state.cycleDue with
    | true =>
      rw [Rule.action, program_drill_of_cycleDue d line x y due]
      exact written [.rapidTo x y, .rapidHeight d.safeHeight, .rapidHeight d.feedHeight,
        .drillCycle x y d.bottomHeight d.feedHeight d.feedRate]
    | false =>
      rw [Rule.action, program_drill_of_not_cycleDue d line x y due]
      exact written [.hole x y]

/-- **Each line is accepted by one rule of the grammar**, from whatever progress on, and what comes
of the line is what this rule says, down to the words that are written. Behind the header a line
that begins with `Y` has malformed coordinates, whatever follows. -/
theorem existsUnique_accepts (line : Text) :
    (∃! rule : Rule, rule.Accepts p.state.inHeader line) ∧
      (∀ rule : Rule, rule.Accepts p.state.inHeader line →
        step d p line = .ofRule d p (Text.trim line) rule ∧
          ∀ o : Output, (step d p line).text o p =
            ruleText ⟨d, o⟩ p.state.cycleDue p.state.blocks (Text.trim line) rule) ∧
      (p.state.inHeader = false → (Text.trim line).head? = some 'Y' →
        Rule.malformedCoordinates.Accepts p.state.inHeader line) := by
  refine ⟨⟨_, Rule.accepts_iff.2 rfl, fun rule h => ?_⟩, fun rule h => ?_, fun behind first => ?_⟩
  · exact (Rule.accepts_iff.1 h).symm
  · have same := step_eq_ofRule d p h
    exact ⟨same, fun o => same ▸ text_ofRule d p o (Text.trim line) rule⟩
  · rw [behind]
    exact Rule.accepts_malformedCoordinates first

/-- A number may have blanks and a sign in front and anything behind it. -/
example : Action.ofLine false " M \t+0048.5,TZ".toList = .openHeader := by decide +kernel

end DrillPost.Conversion
