import DrillPost.Proofs.Excellon.Action
import DrillPost.Proofs.Excellon.Field
import DrillPost.Proofs.Excellon.Integer

/-!
# The grammar of lines

What a line does is found by cutting it into fields and reading the numbers at their start. The same
lines are described by a grammar that knows neither fields nor offsets: a letter, a number directly
behind it, and for coordinates a second letter and a second number, with no delimiter in front of
that letter. Delimiters do not stand in numbers, so a number is read from the text of a field as it
is read from all that follows the letter.

* `WordAtStart`: a number that is read (`leadingInteger_cut`: it is read from a field);
* `AfterLetter`: what follows the first letter of a line;
* `machineCode_eq_some_iff`, `toolNumber_eq_some_iff`: the numbers of machine codes and of tools;
* `IsPair`, `coordinatePair_eq_some_iff`: coordinates;
* `Rule`, `Rule.Accepts`: the rules of the grammar, and the lines that each of them accepts;
* `Rule.accepts_iff`: a line is accepted by the rule of what it does, and by no other.
-/

namespace DrillPost.Excellon

open Number

/-! ## Numbers and delimiters -/

/-- A number at the start of a text that is read: its digits write at most `2 ^ 63 - 1`. -/
def WordAtStart (raw : Text) (i : Int) (rest : Text) : Prop :=
  NumberAtStart raw i rest ∧ i.natAbs ≤ greatestMagnitude

theorem leadingInteger_eq_some_iff_wordAtStart {raw : Text} {i : Int} :
    leadingInteger raw = some i ↔ ∃ rest, WordAtStart raw i rest := by
  rw [leadingInteger_eq_some_iff_numberAtStart]
  exact ⟨fun ⟨⟨rest, h⟩, least⟩ => ⟨rest, h, least⟩, fun ⟨rest, h, least⟩ => ⟨⟨rest, h⟩, least⟩⟩

/-- Numbers are written without delimiters. -/
theorem IsNumeric.isDelimiter_eq_false {c : Char} (h : IsNumeric c) : isDelimiter c = false := by
  have plain : (delimiters.all fun d =>
      !Text.isBlank d && d != '+' && d != '-' && !isDigit d) = true := rfl
  refine Bool.eq_false_iff.2 fun delimiter => ?_
  have other := List.all_eq_true.1 plain c (List.contains_iff_mem.1 delimiter)
  simp only [Bool.and_eq_true, Bool.not_eq_true', bne_iff_ne, ne_eq] at other
  obtain ⟨⟨⟨blank, plus⟩, minus⟩, digit⟩ := other
  rcases h with h | h | h | h
  · exact absurd h (Bool.eq_false_iff.1 blank)
  · exact plus h
  · exact minus h
  · exact absurd h (Bool.eq_false_iff.1 digit)

theorem endsRun_isDigit_append {run : Text} {d : Char} (hd : isDelimiter d = true) (more : Text) :
    EndsRun isDigit (run ++ d :: more) ↔ EndsRun isDigit run := by
  cases run with
  | nil =>
    have other : isDigit d = false := Bool.eq_false_iff.2 fun digit =>
      absurd hd (Bool.eq_false_iff.1 (IsNumeric.isDelimiter_eq_false (.inr (.inr (.inr digit)))))
    simp [other]
  | cons c run => simp

/-- **A delimiter ends what there is to a number.** The numbers at the start of a text are those at
the start of its part in front of a delimiter. -/
theorem wordAtStart_append_iff {front more rest : Text} {i : Int} {d : Char}
    (hd : isDelimiter d = true) :
    WordAtStart (front ++ d :: more) i rest ↔
      ∃ run, WordAtStart front i run ∧ rest = run ++ d :: more := by
  constructor
  · rintro ⟨number, least⟩
    obtain ⟨written, text, -, numeric, exchange⟩ := number.exists_written
    have stop := number.endsRun
    rcases List.append_eq_append_iff.1 text with ⟨mid, rfl, hm⟩ | ⟨run, rfl, rfl⟩
    · cases mid with
      | nil =>
        refine ⟨[], ⟨?_, least⟩, hm.symm⟩
        simpa using exchange [] (endsRun_nil isDigit)
      | cons c mid =>
        -- the delimiter would be a part of the number
        obtain rfl : d = c := (List.cons.inj hm).1
        have plain := (numeric d (by simp)).isDelimiter_eq_false
        exact absurd hd (Bool.eq_false_iff.1 plain)
    · exact ⟨run, ⟨exchange run ((endsRun_isDigit_append hd more).1 stop), least⟩, rfl⟩
  · rintro ⟨run, ⟨number, least⟩, rfl⟩
    have stop := number.endsRun
    obtain ⟨written, rfl, -, -, exchange⟩ := number.exists_written
    rw [List.append_assoc]
    exact ⟨exchange _ ((endsRun_isDigit_append hd more).2 stop), least⟩

theorem leadingInteger_append {front : Text} {d : Char} (hd : isDelimiter d = true) (more : Text) :
    leadingInteger (front ++ d :: more) = leadingInteger front := by
  ext i
  simp only [leadingInteger_eq_some_iff_wordAtStart, wordAtStart_append_iff hd]
  exact ⟨fun ⟨_, run, h, _⟩ => ⟨run, h⟩, fun ⟨run, h⟩ => ⟨_, run, h, rfl⟩⟩

/-- **Cutting a field** does not touch the number at its start. -/
theorem leadingInteger_cut (t : Text) : leadingInteger (Field.cut t).1 = leadingInteger t := by
  rcases Field.cut_cases t with ⟨hc, -⟩ | ⟨hc, -⟩ | ⟨front, d, rest, rfl, -, -, hd, hc⟩
  · rw [hc]
  · rw [hc]
  · rw [hc, leadingInteger_append hd]

/-! ## Machine codes and tools -/

/-- What follows the first letter of a line, which counts as it is written. The rest is put in upper
case. -/
def AfterLetter (c : Char) (line rest : Text) : Prop :=
  (Text.trim line).head? = some c ∧ Text.normalize line = c :: rest

theorem exists_afterLetter {c : Char} {line : Text} (h : (Text.trim line).head? = some c)
    (hc : c.toUpper = c) : ∃ rest, AfterLetter c line rest := by
  obtain ⟨r, hr⟩ := List.head?_eq_some_iff.1 h
  refine ⟨Text.upper r, h, ?_⟩
  rw [Text.normalize, hr, Text.upper, List.map_cons, hc]
  rfl

theorem AfterLetter.integer {c : Char} {line rest : Text} (h : AfterLetter c line rest) :
    (Field.scan (Text.normalize line)).bind (·.1.integer) = leadingInteger rest := by
  rw [h.2]
  exact leadingInteger_cut rest

/-- **The number of a machine code** stands behind its letter. -/
theorem machineCode_eq_some_iff {line : Text} {code : Int} :
    machineCode line = some code ↔
      ∃ r rest, AfterLetter 'M' line r ∧ WordAtStart r code rest := by
  constructor
  · intro h
    have head := head_of_machineCode h
    obtain ⟨r, after⟩ := exists_afterLetter head rfl
    rw [machineCode, if_pos head, after.integer] at h
    obtain ⟨rest, number⟩ := leadingInteger_eq_some_iff_wordAtStart.1 h
    exact ⟨r, rest, after, number⟩
  · rintro ⟨r, rest, after, number⟩
    rw [machineCode, if_pos after.1, after.integer]
    exact leadingInteger_eq_some_iff_wordAtStart.2 ⟨rest, number⟩

/-- The numbers of tools are those of 32 bits without a sign. -/
theorem toolNumber_eq_some_iff_toNat {i : Int} {tool : UInt32} :
    Action.toolNumber i = some tool ↔ i = tool.toNat := by
  have least : tool.toNat < UInt32.size := tool.toNat_lt
  simp only [Action.toolNumber, Bool.and_eq_true, decide_eq_true_eq]
  constructor
  · intro h
    split_ifs at h with range
    rw [← Option.some.inj h, UInt32.toNat_ofNat']
    unfold UInt32.size at range
    omega
  · rintro rfl
    rw [if_pos ⟨Int.natCast_nonneg _, by exact_mod_cast least⟩, Int.toNat_natCast,
      UInt32.ofNat_toNat]

/-- **The number of a tool** stands behind its letter. -/
theorem toolNumber_eq_some_iff {line : Text} {tool : UInt32} :
    toolNumber line = some tool ↔
      ∃ r rest, AfterLetter 'T' line r ∧ WordAtStart r tool.toNat rest := by
  constructor
  · intro h
    have head := head_of_toolNumber h
    obtain ⟨r, after⟩ := exists_afterLetter head rfl
    rw [toolNumber, if_pos head, after.integer, Option.bind_eq_some_iff] at h
    obtain ⟨i, read, number⟩ := h
    obtain rfl := toolNumber_eq_some_iff_toNat.1 number
    obtain ⟨rest, number⟩ := leadingInteger_eq_some_iff_wordAtStart.1 read
    exact ⟨r, rest, after, number⟩
  · rintro ⟨r, rest, after, number⟩
    rw [toolNumber, if_pos after.1, after.integer,
      leadingInteger_eq_some_iff_wordAtStart.2 ⟨rest, number⟩, Option.bind_some]
    exact toolNumber_eq_some_iff_toNat.2 rfl

/-! ## Coordinates -/

/-- A pair of coordinates: `X` and a number, anything without a delimiter, `Y` and a number, and
anything behind it. -/
inductive IsPair (x y : Int) : Text → Prop
  | intro {r run s rest : Text} (hx : WordAtStart r x (run ++ 'Y' :: s))
      (hr : ∀ c ∈ run, isDelimiter c = false) (hy : WordAtStart s y rest) : IsPair x y ('X' :: r)

/-- Coordinates whose first field ends in front of a delimiter. -/
theorem coordinates_of_cut {c d : Char} {r front s : Text} {x y : Int}
    (h : Field.cut r = (front, d :: s)) :
    Action.coordinates (c :: r) = some (x, y) ↔
      c = 'X' ∧ d = 'Y' ∧ leadingInteger front = some x ∧ leadingInteger s = some y := by
  have fields : Field.pair (c :: r) = some (⟨c, front⟩, some ⟨d, (Field.cut s).1⟩) := by
    simp [Field.pair, Field.scan, h]
  rw [Action.coordinates, fields, ← leadingInteger_cut s]
  simp only [Field.integer]
  constructor
  · intro hp
    split_ifs at hp with letters
    simp only [Option.bind_eq_some_iff, Option.map_eq_some_iff, Prod.mk.injEq] at hp
    obtain ⟨i, hi, j, hj, rfl, rfl⟩ := hp
    exact ⟨letters.1, letters.2, hi, hj⟩
  · rintro ⟨rfl, rfl, hi, hj⟩
    simp [hi, hj]

/-- **Coordinates** are read from the texts of pairs. -/
theorem coordinates_eq_some_iff {t : Text} {x y : Int} :
    Action.coordinates t = some (x, y) ↔ IsPair x y t := by
  constructor
  · intro h
    cases t with
    | nil => cases h
    | cons c r =>
      rcases Field.cut_cases r with ⟨hc, -⟩ | ⟨hc, -⟩ | ⟨front, d, s, rfl, -, plain, hd, hc⟩
      · simp [Action.coordinates, Field.pair, Field.scan, hc] at h
      · simp [Action.coordinates, Field.pair, Field.scan, hc] at h
      · obtain ⟨rfl, rfl, hx, hy⟩ := (coordinates_of_cut hc).1 h
        obtain ⟨run, first⟩ := leadingInteger_eq_some_iff_wordAtStart.1 hx
        obtain ⟨rest, second⟩ := leadingInteger_eq_some_iff_wordAtStart.1 hy
        refine .intro ((wordAtStart_append_iff hd).2 ⟨run, first, rfl⟩) (fun c member => ?_) second
        obtain ⟨written, rfl, -⟩ := first.1.exists_written
        exact plain c (List.mem_append_right _ member)
  · intro h
    cases h with
    | @intro r run s rest hx hr hy =>
      obtain ⟨written, rfl, some, numeric, -⟩ := hx.1.exists_written
      have plain : ∀ c ∈ written ++ run, isDelimiter c = false := by
        rw [List.forall_mem_append]
        exact ⟨fun c hc => (numeric c hc).isDelimiter_eq_false, hr⟩
      have hc : Field.cut (written ++ (run ++ 'Y' :: s)) = (written ++ run, 'Y' :: s) := by
        rw [← List.append_assoc]
        exact Field.cut_append_cons (by simp [some]) plain rfl s
      rw [coordinates_of_cut hc, ← leadingInteger_append (rfl : isDelimiter 'Y' = true) s,
        List.append_assoc]
      exact ⟨rfl, rfl, leadingInteger_eq_some_iff_wordAtStart.2 ⟨_, hx⟩,
        leadingInteger_eq_some_iff_wordAtStart.2 ⟨_, hy⟩⟩

theorem coordinatePair_eq_some_iff {line : Text} {x y : Int} :
    coordinatePair line = some (x, y) ↔
      ((Text.trim line).head? = some 'X' ∨ (Text.trim line).head? = some 'Y') ∧
        IsPair x y (Text.normalize line) := by
  constructor
  · intro h
    have head := head_of_coordinatePair h
    rw [coordinatePair, if_pos head] at h
    exact ⟨head, coordinates_eq_some_iff.1 h⟩
  · rintro ⟨head, pair⟩
    rw [coordinatePair, if_pos head]
    exact coordinates_eq_some_iff.2 pair

/-! ## Rules -/

/-- The rules of the grammar of lines, with what is read by each of them. -/
inductive Rule
  | blank
  | percent
  | programEnd
  | headerStart
  | unitCode (unit : LengthUnit)
  | unknownCode
  | toolDefinition (number diameter : Text)
  | toolChange (tool : UInt32)
  | malformedTool
  | headerCoordinates
  | hole (x y : Int)
  | malformedCoordinates
  | otherLetter
  deriving DecidableEq, Repr

namespace Rule

/-- The lines that a rule accepts, inside the header or behind it. -/
inductive Accepts (inHeader : Bool) (line : Text) : Rule → Prop
  | blank (h : Text.trim line = []) : Accepts inHeader line .blank
  | percent (h : (Text.trim line).head? = some '%') : Accepts inHeader line .percent
  | programEnd {r rest : Text} (h : AfterLetter 'M' line r) (hn : WordAtStart r 30 rest) :
      Accepts inHeader line .programEnd
  | headerStart {r rest : Text} (h : AfterLetter 'M' line r) (hn : WordAtStart r 48 rest) :
      Accepts inHeader line .headerStart
  | metric {r rest : Text} (h : AfterLetter 'M' line r) (hn : WordAtStart r 71 rest) :
      Accepts inHeader line (.unitCode .metric)
  | imperial {r rest : Text} (h : AfterLetter 'M' line r) (hn : WordAtStart r 72 rest) :
      Accepts inHeader line (.unitCode .imperial)
  | unknownCode {r : Text} (h : AfterLetter 'M' line r)
      (hn : ∀ code rest, WordAtStart r code rest →
        code ≠ 30 ∧ code ≠ 48 ∧ code ≠ 71 ∧ code ≠ 72) : Accepts inHeader line .unknownCode
  | toolDefinition {first : Field} {second : Option Field} (h : (Text.trim line).head? = some 'T')
      (hb : inHeader = true) (hp : Field.pair (Text.normalize line) = some (first, second)) :
      Accepts inHeader line (.toolDefinition first.raw ((second.map (·.raw)).getD []))
  | toolChange {r rest : Text} {tool : UInt32} (h : AfterLetter 'T' line r)
      (hb : inHeader = false) (hn : WordAtStart r tool.toNat rest) :
      Accepts inHeader line (.toolChange tool)
  | malformedTool {r : Text} (h : AfterLetter 'T' line r) (hb : inHeader = false)
      (hn : ∀ i rest, WordAtStart r i rest → ¬ (0 ≤ i ∧ i ≤ 2 ^ 32 - 1)) :
      Accepts inHeader line .malformedTool
  | headerCoordinates
      (h : (Text.trim line).head? = some 'X' ∨ (Text.trim line).head? = some 'Y')
      (hb : inHeader = true) : Accepts inHeader line .headerCoordinates
  | hole {x y : Int} (h : (Text.trim line).head? = some 'X' ∨ (Text.trim line).head? = some 'Y')
      (hb : inHeader = false) (hp : IsPair x y (Text.normalize line)) :
      Accepts inHeader line (.hole x y)
  | malformedCoordinates
      (h : (Text.trim line).head? = some 'X' ∨ (Text.trim line).head? = some 'Y')
      (hb : inHeader = false) (hp : ∀ x y, ¬ IsPair x y (Text.normalize line)) :
      Accepts inHeader line .malformedCoordinates
  | otherLetter {c : Char} (h : (Text.trim line).head? = some c)
      (hc : c ≠ '%' ∧ c ≠ 'M' ∧ c ≠ 'T' ∧ c ≠ 'X' ∧ c ≠ 'Y') : Accepts inHeader line .otherLetter

/-- What a line does that a rule accepts. -/
def action : Rule → Action
  | blank | headerCoordinates => .idle
  | percent => .closeHeader
  | programEnd => .endProgram
  | headerStart => .openHeader
  | unitCode unit => .setUnit unit
  | unknownCode => .reject .unknownMachineCode
  | toolDefinition number diameter => .defineTool number diameter
  | toolChange tool => .selectTool tool
  | malformedTool | malformedCoordinates => .reject .malformedNumber
  | hole x y => .drill x y
  | otherLetter => .reject .unrecognizedCode

/-- The rule that an action comes from, at a line with a given first character. -/
def ofAction (first : Option Char) : Action → Rule
  | .idle => if first = none then blank else headerCoordinates
  | .closeHeader => percent
  | .endProgram => programEnd
  | .openHeader => headerStart
  | .setUnit unit => unitCode unit
  | .defineTool number diameter => toolDefinition number diameter
  | .selectTool tool => toolChange tool
  | .drill x y => hole x y
  | .reject .unknownMachineCode => unknownCode
  | .reject .malformedNumber => if first = some 'T' then malformedTool else malformedCoordinates
  | .reject .unrecognizedCode => otherLetter

section

variable {inHeader : Bool} {line : Text} {rule : Rule} {a : Action}

theorem ofMachineCode_eq_none_iff {code : Int} :
    LengthUnit.ofMachineCode code = none ↔ code ≠ 71 ∧ code ≠ 72 := by
  unfold LengthUnit.ofMachineCode
  grind

/-- A line that begins with `T` has no tool number exactly when no number of 32 bits without a sign
stands behind the letter. -/
theorem toolNumber_eq_none_iff {r : Text} (h : AfterLetter 'T' line r) :
    toolNumber line = none ↔ ∀ i rest, WordAtStart r i rest → ¬ (0 ≤ i ∧ i ≤ 2 ^ 32 - 1) := by
  rw [Option.eq_none_iff_forall_ne_some]
  constructor
  · rintro none i rest number ⟨low, high⟩
    have small : i.toNat < UInt32.size := by
      unfold UInt32.size
      omega
    have value : ((UInt32.ofNat i.toNat).toNat : Int) = i := by
      rw [UInt32.toNat_ofNat_of_lt' small, Int.toNat_of_nonneg low]
    exact none _ (toolNumber_eq_some_iff.2 ⟨r, rest, h, value.symm ▸ number⟩)
  · intro none tool ht
    obtain ⟨r', rest, h', number⟩ := toolNumber_eq_some_iff.1 ht
    obtain rfl : r = r' := (List.cons.inj (h.2.symm.trans h'.2)).2
    have small := tool.toNat_lt
    exact none _ rest number ⟨Int.natCast_nonneg _, by omega⟩

/-- What a rule accepts stands for its action. -/
theorem Accepts.dispatch (h : Accepts inHeader line rule) :
    Action.Dispatch inHeader line rule.action := by
  cases h with
  | blank h => exact .blank h
  | percent h => exact .percent h
  | programEnd h hn => exact .endProgram (machineCode_eq_some_iff.2 ⟨_, _, h, hn⟩)
  | headerStart h hn => exact .openHeader (machineCode_eq_some_iff.2 ⟨_, _, h, hn⟩)
  | metric h hn => exact .setUnit (machineCode_eq_some_iff.2 ⟨_, _, h, hn⟩) rfl
  | imperial h hn => exact .setUnit (machineCode_eq_some_iff.2 ⟨_, _, h, hn⟩) rfl
  | @unknownCode r h hn =>
    refine .otherCode h.1 fun code hc => ?_
    obtain ⟨r', rest, h', number⟩ := machineCode_eq_some_iff.1 hc
    obtain rfl : r = r' := (List.cons.inj (h.2.symm.trans h'.2)).2
    obtain ⟨ending, header, units⟩ := hn code rest number
    exact ⟨ending, header, ofMachineCode_eq_none_iff.2 units⟩
  | toolDefinition h hb hp => exact .definition h hb hp
  | toolChange h hb hn => exact .selection (toolNumber_eq_some_iff.2 ⟨_, _, h, hn⟩) hb
  | malformedTool h hb hn => exact .malformedTool h.1 hb ((toolNumber_eq_none_iff h).2 hn)
  | headerCoordinates h hb => exact .skipped h hb
  | hole h hb hp => exact .hole (coordinatePair_eq_some_iff.2 ⟨h, hp⟩) hb
  | malformedCoordinates h hb hp =>
    refine .malformedPair h hb (Option.eq_none_iff_forall_ne_some.2 fun (x, y) pair => ?_)
    exact hp x y (coordinatePair_eq_some_iff.1 pair).2
  | otherLetter h hc => exact .otherLetter h hc

/-- A rule is known from its action and the first character of a line that it accepts. -/
theorem Accepts.ofAction_action (h : Accepts inHeader line rule) :
    ofAction (Text.trim line).head? rule.action = rule := by
  cases h with
  | blank h => simp [action, ofAction, h]
  | malformedTool h hb hn => simp [action, ofAction, h.1]
  | headerCoordinates h hb => rcases h with h | h <;> simp [action, ofAction, h]
  | malformedCoordinates h hb hp => rcases h with h | h <;> simp [action, ofAction, h]
  | _ => rfl

/-- A line that stands for an action is accepted by the rule that this comes from. -/
theorem accepts_of_dispatch (h : Action.Dispatch inHeader line a) :
    Accepts inHeader line (ofAction (Text.trim line).head? a) := by
  cases h with
  | blank h =>
    simp only [ofAction, h, List.head?_nil, if_true]
    exact .blank h
  | percent h => exact .percent h
  | endProgram h =>
    obtain ⟨r, rest, after, number⟩ := machineCode_eq_some_iff.1 h
    exact .programEnd after number
  | openHeader h =>
    obtain ⟨r, rest, after, number⟩ := machineCode_eq_some_iff.1 h
    exact .headerStart after number
  | @setUnit code unit h hu =>
    obtain ⟨r, rest, after, number⟩ := machineCode_eq_some_iff.1 h
    rcases LengthUnit.ofMachineCode_eq_some_iff.1 hu with ⟨rfl, rfl⟩ | ⟨rfl, rfl⟩
    · exact .metric after number
    · exact .imperial after number
  | otherCode h ho =>
    obtain ⟨r, after⟩ := exists_afterLetter h rfl
    refine .unknownCode after fun code rest number => ?_
    obtain ⟨ending, header, units⟩ :=
      ho code (machineCode_eq_some_iff.2 ⟨r, rest, after, number⟩)
    exact ⟨ending, header, ofMachineCode_eq_none_iff.1 units⟩
  | definition h hb hp => exact .toolDefinition h hb hp
  | selection h hb =>
    obtain ⟨r, rest, after, number⟩ := toolNumber_eq_some_iff.1 h
    exact .toolChange after hb number
  | malformedTool h hb ht =>
    obtain ⟨r, after⟩ := exists_afterLetter h rfl
    simp only [ofAction, h, if_true]
    exact .malformedTool after hb ((toolNumber_eq_none_iff after).1 ht)
  | skipped h hb =>
    have rule : ofAction (Text.trim line).head? .idle = .headerCoordinates := by
      rcases h with h | h <;> simp [ofAction, h]
    rw [rule]
    exact .headerCoordinates h hb
  | hole h hb =>
    obtain ⟨head, pair⟩ := coordinatePair_eq_some_iff.1 h
    exact .hole head hb pair
  | malformedPair h hb hp =>
    have rule : ofAction (Text.trim line).head? (.reject .malformedNumber) =
        .malformedCoordinates := by
      rcases h with h | h <;> simp [ofAction, h]
    rw [rule]
    refine .malformedCoordinates h hb fun x y pair => ?_
    rw [coordinatePair_eq_some_iff.2 ⟨h, pair⟩] at hp
    cases hp
  | otherLetter h hc => exact .otherLetter h hc

/-- Coordinates do not begin with `Y`. -/
theorem accepts_malformedCoordinates (h : (Text.trim line).head? = some 'Y') :
    Accepts false line .malformedCoordinates := by
  obtain ⟨r, -, text⟩ := exists_afterLetter h rfl
  refine .malformedCoordinates (.inr h) rfl fun x y pair => ?_
  rw [text] at pair
  cases pair

/-- What a line does is the action of the rule that accepts it. -/
theorem Accepts.ofLine_eq (h : Accepts inHeader line rule) :
    Action.ofLine inHeader line = rule.action :=
  Action.ofLine_eq_iff.2 h.dispatch

/-- **A line is accepted by one rule**: the one that what it does comes from. -/
theorem accepts_iff :
    Accepts inHeader line rule ↔
      ofAction (Text.trim line).head? (Action.ofLine inHeader line) = rule := by
  constructor
  · intro h
    rw [h.ofLine_eq, h.ofAction_action]
  · rintro rfl
    exact accepts_of_dispatch Action.dispatch_ofLine

end

end Rule

end DrillPost.Excellon
