import DrillPost.Excellon.Action
import DrillPost.Proofs.Text.Separation
import Mathlib

/-!
# Which line does what

What a line does is told from its first character, from the numbers in it and from where it stands.
Holes and tools come from the lines that begin with their letter, outside the header, and hold
numbers; and no line makes an action that quotes a line feed which the line itself has not.

* `machineCode`, `coordinatePair`, `toolNumber`: the numbers of a machine code, of a coordinate line
  and of a tool line;
* `Action.Dispatch`: the lines that stand for an action (`Action.ofLine_eq_iff`);
* `Action.ofLine_eq_drill_iff`, `Action.ofLine_eq_selectTool_iff`: which lines drill, and which
  select a tool;
* `Action.ofLine_eq_idle_iff`, `Action.ofLine_eq_malformedNumber_iff`: which lines do nothing, and
  which have a malformed number;
* `Action.ofLine_eq_openHeader_iff`, `Action.ofLine_eq_closeHeader_iff`,
  `Action.ofLine_eq_endProgram_iff`: the lines that open and close the header or end the program do
  so wherever they stand;
* `Action.lineFeed_notMem_of_ofLine_eq_defineTool`: the texts of a tool's definition.
-/

namespace DrillPost.Excellon

/-- The number of a line that begins with `M` and a whole number. -/
def machineCode (line : Text) : Option Int :=
  if (Text.trim line).head? = some 'M' then
    (Field.scan (Text.normalize line)).bind (·.1.integer)
  else none

/-- The coordinates of a line that begins with `X` or `Y` and is a pair of whole numbers. -/
def coordinatePair (line : Text) : Option (Int × Int) :=
  if (Text.trim line).head? = some 'X' ∨ (Text.trim line).head? = some 'Y' then
    Action.coordinates (Text.normalize line)
  else none

/-- The number of a line that begins with `T` and a tool number. -/
def toolNumber (line : Text) : Option UInt32 :=
  if (Text.trim line).head? = some 'T' then
    ((Field.scan (Text.normalize line)).bind (·.1.integer)).bind Action.toolNumber
  else none

theorem head_of_machineCode {line : Text} {code : Int} (h : machineCode line = some code) :
    (Text.trim line).head? = some 'M' := by
  unfold machineCode at h
  split at h
  · assumption
  · cases h

theorem head_of_coordinatePair {line : Text} {p : Int × Int} (h : coordinatePair line = some p) :
    (Text.trim line).head? = some 'X' ∨ (Text.trim line).head? = some 'Y' := by
  unfold coordinatePair at h
  split at h
  · assumption
  · cases h

theorem head_of_toolNumber {line : Text} {tool : UInt32} (h : toolNumber line = some tool) :
    (Text.trim line).head? = some 'T' := by
  unfold toolNumber at h
  split at h
  · assumption
  · cases h

/-- A line that is not blank has a first field. -/
theorem exists_pair_normalize {line : Text} (h : Text.trim line ≠ []) :
    ∃ first second, Field.pair (Text.normalize line) = some (first, second) := by
  obtain ⟨c, r, hc⟩ := List.exists_cons_of_ne_nil h
  simp [Text.normalize, hc, Text.upper, Field.pair, Field.scan]

namespace Action

/-! ## The lines that stand for an action -/

/-- What a line does, inside the header or behind it. -/
inductive Dispatch (inHeader : Bool) (line : Text) : Action → Prop
  | blank (h : Text.trim line = []) : Dispatch inHeader line .idle
  | percent (h : (Text.trim line).head? = some '%') : Dispatch inHeader line .closeHeader
  | endProgram (h : machineCode line = some 30) : Dispatch inHeader line .endProgram
  | openHeader (h : machineCode line = some 48) : Dispatch inHeader line .openHeader
  | setUnit {code : Int} {unit : LengthUnit} (h : machineCode line = some code)
      (hu : LengthUnit.ofMachineCode code = some unit) : Dispatch inHeader line (.setUnit unit)
  | otherCode (h : (Text.trim line).head? = some 'M')
      (ho : ∀ code ∈ machineCode line, code ≠ 30 ∧ code ≠ 48 ∧
        LengthUnit.ofMachineCode code = none) :
      Dispatch inHeader line (.reject .unknownMachineCode)
  | definition {first : Field} {second : Option Field} (h : (Text.trim line).head? = some 'T')
      (hb : inHeader = true) (hp : Field.pair (Text.normalize line) = some (first, second)) :
      Dispatch inHeader line (.defineTool first.raw ((second.map (·.raw)).getD []))
  | selection {tool : UInt32} (h : Excellon.toolNumber line = some tool) (hb : inHeader = false) :
      Dispatch inHeader line (.selectTool tool)
  | malformedTool (h : (Text.trim line).head? = some 'T') (hb : inHeader = false)
      (ht : Excellon.toolNumber line = none) : Dispatch inHeader line (.reject .malformedNumber)
  | skipped (h : (Text.trim line).head? = some 'X' ∨ (Text.trim line).head? = some 'Y')
      (hb : inHeader = true) : Dispatch inHeader line .idle
  | hole {x y : Int} (h : coordinatePair line = some (x, y)) (hb : inHeader = false) :
      Dispatch inHeader line (.drill x y)
  | malformedPair (h : (Text.trim line).head? = some 'X' ∨ (Text.trim line).head? = some 'Y')
      (hb : inHeader = false) (hp : coordinatePair line = none) :
      Dispatch inHeader line (.reject .malformedNumber)
  | otherLetter {c : Char} (h : (Text.trim line).head? = some c)
      (hc : c ≠ '%' ∧ c ≠ 'M' ∧ c ≠ 'T' ∧ c ≠ 'X' ∧ c ≠ 'Y') :
      Dispatch inHeader line (.reject .unrecognizedCode)

section

variable {inHeader : Bool} {line : Text}

/-- What a line does when its first character is known. -/
theorem ofLine_of_head {c : Char} (h : (Text.trim line).head? = some c) :
    ofLine inHeader line =
      if c = '%' then .closeHeader
      else if c = 'M' then ofMachineCode ((Field.scan (Text.normalize line)).bind (·.1.integer))
      else if c = 'T' then
        if inHeader then toolDefinition (Text.normalize line)
        else toolSelection (Text.normalize line)
      else if c = 'X' ∨ c = 'Y' then if inHeader then .idle else hole (Text.normalize line)
      else .reject .unrecognizedCode := by
  obtain ⟨r, hr⟩ := List.head?_eq_some_iff.1 h
  rw [ofLine, Text.normalize, hr]

theorem ofLine_of_machineCode (h : (Text.trim line).head? = some 'M') :
    ofLine inHeader line = ofMachineCode (machineCode line) := by
  rw [ofLine_of_head h, machineCode, if_pos h]
  rfl

theorem ofLine_of_tool (h : (Text.trim line).head? = some 'T') :
    ofLine inHeader line =
      if inHeader then toolDefinition (Text.normalize line)
      else (Excellon.toolNumber line).elim (.reject .malformedNumber) .selectTool := by
  rw [ofLine_of_head h, Excellon.toolNumber, if_pos h, toolSelection]
  cases ((Field.scan (Text.normalize line)).bind (·.1.integer)).bind Action.toolNumber <;> rfl

theorem ofLine_of_coordinates
    (h : (Text.trim line).head? = some 'X' ∨ (Text.trim line).head? = some 'Y') :
    ofLine inHeader line =
      if inHeader then .idle
      else (coordinatePair line).elim (.reject .malformedNumber) fun (x, y) => .drill x y := by
  have key : hole (Text.normalize line) =
      (coordinatePair line).elim (.reject .malformedNumber) fun (x, y) => .drill x y := by
    rw [hole, coordinatePair, if_pos h]
    cases coordinates (Text.normalize line) <;> rfl
  rw [← key]
  rcases h with h | h <;> rw [ofLine_of_head h] <;> rfl

theorem dispatch_machineCode (h : (Text.trim line).head? = some 'M') :
    Dispatch inHeader line (ofMachineCode (machineCode line)) := by
  cases hc : machineCode line with
  | none => exact .otherCode h (by simp [hc])
  | some code =>
    simp only [ofMachineCode]
    split_ifs with h30 h48
    · exact .endProgram (h30 ▸ hc)
    · exact .openHeader (h48 ▸ hc)
    · cases hu : LengthUnit.ofMachineCode code with
      | some unit => exact .setUnit hc hu
      | none => exact .otherCode h (by simp [hc, h30, h48, hu])

theorem dispatch_tool (h : (Text.trim line).head? = some 'T') :
    Dispatch inHeader line (ofLine inHeader line) := by
  rw [ofLine_of_tool h]
  cases hb : inHeader with
  | true =>
    have notBlank : Text.trim line ≠ [] := by
      rintro hn
      simp [hn] at h
    obtain ⟨first, second, hp⟩ := exists_pair_normalize notBlank
    rw [if_pos rfl, toolDefinition, hp]
    exact .definition h rfl hp
  | false =>
    cases ht : Excellon.toolNumber line with
    | some tool => exact .selection ht rfl
    | none => exact .malformedTool h rfl ht

theorem dispatch_coordinates
    (h : (Text.trim line).head? = some 'X' ∨ (Text.trim line).head? = some 'Y') :
    Dispatch inHeader line (ofLine inHeader line) := by
  rw [ofLine_of_coordinates h]
  cases hb : inHeader with
  | true => exact .skipped h rfl
  | false =>
    cases hp : coordinatePair line with
    | some p => exact .hole hp rfl
    | none => exact .malformedPair h rfl hp

theorem dispatch_ofLine : Dispatch inHeader line (ofLine inHeader line) := by
  cases hc : (Text.trim line).head? with
  | none =>
    have blank : Text.trim line = [] := List.head?_eq_none_iff.1 hc
    rw [ofLine, blank]
    exact .blank blank
  | some c =>
    by_cases m : c = 'M'
    · rw [ofLine_of_machineCode (m ▸ hc)]
      exact dispatch_machineCode (m ▸ hc)
    by_cases t : c = 'T'
    · exact dispatch_tool (t ▸ hc)
    by_cases xy : c = 'X' ∨ c = 'Y'
    · exact dispatch_coordinates (by simpa [hc] using xy)
    rw [ofLine_of_head hc, if_neg m, if_neg t, if_neg xy]
    split_ifs with percent
    · exact .percent (percent ▸ hc)
    · rw [not_or] at xy
      exact .otherLetter hc ⟨percent, m, t, xy.1, xy.2⟩

/-- **The lines that stand for an action.** -/
theorem ofLine_eq_iff {a : Action} : ofLine inHeader line = a ↔ Dispatch inHeader line a := by
  constructor
  · rintro rfl
    exact dispatch_ofLine
  · intro h
    cases h with
    | blank h => rw [ofLine, h]
    | percent h => rw [ofLine_of_head h, if_pos rfl]
    | endProgram h =>
      rw [ofLine_of_machineCode (head_of_machineCode h), h]
      rfl
    | openHeader h =>
      rw [ofLine_of_machineCode (head_of_machineCode h), h]
      rfl
    | @setUnit code unit h hu =>
      rw [ofLine_of_machineCode (head_of_machineCode h), h]
      rcases LengthUnit.ofMachineCode_eq_some_iff.1 hu with ⟨rfl, rfl⟩ | ⟨rfl, rfl⟩ <;> rfl
    | otherCode h ho =>
      rw [ofLine_of_machineCode h]
      cases hc : machineCode line with
      | none => rfl
      | some code =>
        obtain ⟨h30, h48, hu⟩ := ho code hc
        simp [ofMachineCode, h30, h48, hu]
    | definition h hb hp => rw [ofLine_of_tool h, if_pos hb, toolDefinition, hp]
    | selection h hb =>
      rw [ofLine_of_tool (head_of_toolNumber h), hb, h]
      rfl
    | malformedTool h hb ht =>
      rw [ofLine_of_tool h, hb, ht]
      rfl
    | skipped h hb => rw [ofLine_of_coordinates h, if_pos hb]
    | hole h hb =>
      rw [ofLine_of_coordinates (head_of_coordinatePair h), hb, h]
      rfl
    | malformedPair h hb hp =>
      rw [ofLine_of_coordinates h, hb, hp]
      rfl
    | otherLetter h hc => simp [ofLine_of_head h, hc]

/-! ## Holes and tools -/

/-- **A line drills** exactly when it is a coordinate pair outside the header. -/
theorem ofLine_eq_drill_iff {x y : Int} :
    ofLine inHeader line = .drill x y ↔
      inHeader = false ∧ coordinatePair line = some (x, y) := by
  rw [ofLine_eq_iff]
  constructor
  · intro h
    cases h with
    | hole h hb => exact ⟨hb, h⟩
  · rintro ⟨hb, h⟩
    exact .hole h hb

/-- **A line selects a tool** exactly when it has a tool number outside the header. -/
theorem ofLine_eq_selectTool_iff {tool : UInt32} :
    ofLine inHeader line = .selectTool tool ↔
      inHeader = false ∧ Excellon.toolNumber line = some tool := by
  rw [ofLine_eq_iff]
  constructor
  · intro h
    cases h with
    | selection h hb => exact ⟨hb, h⟩
  · rintro ⟨hb, h⟩
    exact .selection h hb

/-! ## Lines that are passed over, and lines with malformed numbers -/

/-- A line does nothing exactly when it is blank or gives coordinates inside the header. -/
theorem ofLine_eq_idle_iff :
    ofLine inHeader line = .idle ↔ Text.trim line = [] ∨ inHeader = true ∧
      ((Text.trim line).head? = some 'X' ∨ (Text.trim line).head? = some 'Y') := by
  rw [ofLine_eq_iff]
  constructor
  · intro h
    cases h with
    | blank h => exact .inl h
    | skipped h hb => exact .inr ⟨hb, h⟩
  · rintro (h | ⟨hb, h⟩)
    · exact .blank h
    · exact .skipped h hb

/-- **A line has a malformed number** exactly when it stands outside the header and is a tool line
without a tool number, or a coordinate line without a pair of numbers. -/
theorem ofLine_eq_malformedNumber_iff :
    ofLine inHeader line = .reject .malformedNumber ↔ inHeader = false ∧
      ((Text.trim line).head? = some 'T' ∧ Excellon.toolNumber line = none ∨
        ((Text.trim line).head? = some 'X' ∨ (Text.trim line).head? = some 'Y') ∧
          coordinatePair line = none) := by
  rw [ofLine_eq_iff]
  constructor
  · intro h
    cases h with
    | malformedTool h hb ht => exact ⟨hb, .inl ⟨h, ht⟩⟩
    | malformedPair h hb hp => exact ⟨hb, .inr ⟨h, hp⟩⟩
  · rintro ⟨hb, ⟨h, ht⟩ | ⟨h, hp⟩⟩
    · exact .malformedTool h hb ht
    · exact .malformedPair h hb hp

/-! ## The header and the end of the program -/

theorem ofLine_eq_openHeader_iff_machineCode :
    ofLine inHeader line = .openHeader ↔ machineCode line = some 48 := by
  rw [ofLine_eq_iff]
  constructor
  · intro h
    cases h with
    | openHeader h => exact h
  · exact .openHeader

theorem ofLine_eq_closeHeader_iff_head? :
    ofLine inHeader line = .closeHeader ↔ (Text.trim line).head? = some '%' := by
  rw [ofLine_eq_iff]
  constructor
  · intro h
    cases h with
    | percent h => exact h
  · exact .percent

/-- Whether a line opens the header does not hang on where it stands. -/
theorem ofLine_eq_openHeader_iff :
    ofLine inHeader line = .openHeader ↔ ofLine false line = .openHeader := by
  simp only [ofLine_eq_openHeader_iff_machineCode]

/-- Whether a line closes the header does not hang on where it stands. -/
theorem ofLine_eq_closeHeader_iff :
    ofLine inHeader line = .closeHeader ↔ ofLine false line = .closeHeader := by
  simp only [ofLine_eq_closeHeader_iff_head?]

end

/-! ## Quotations -/

theorem mem_of_scan {t rest : Text} {f : Field} (h : Field.scan t = some (f, rest)) {c : Char}
    (hc : c ∈ f.raw ∨ c ∈ rest) : c ∈ t := by
  rw [← Field.text_append_of_scan h]
  rcases hc with hc | hc <;> simp [Field.text, hc]

/-- The texts of the first two fields are taken from the line. -/
theorem mem_of_pair {t : Text} {first : Field} {second : Option Field}
    (h : Field.pair t = some (first, second)) {c : Char}
    (hc : c ∈ first.raw ∨ c ∈ (second.map (·.raw)).getD []) : c ∈ t := by
  unfold Field.pair at h
  rcases ht : Field.scan t with _ | ⟨f, rest⟩
  · simp [ht] at h
  simp only [ht, Option.map_some, Option.some.injEq, Prod.mk.injEq] at h
  obtain ⟨rfl, rfl⟩ := h
  refine mem_of_scan ht (hc.imp_right fun hs => ?_)
  rcases hr : Field.scan rest with _ | ⟨g, last⟩
  · simp [hr] at hs
  · exact mem_of_scan hr (.inl (by simpa [hr] using hs))

/-- The texts in the definition of a tool hold no line feed when the line has none. -/
theorem lineFeed_notMem_of_ofLine_eq_defineTool {inHeader : Bool} {line number diameter : Text}
    (hl : '\n' ∉ line) (h : ofLine inHeader line = .defineTool number diameter) :
    '\n' ∉ number ∧ '\n' ∉ diameter := by
  have trimmed : '\n' ∉ Text.normalize line := fun hm =>
    hl (Text.mem_of_mem_trim (Text.lineFeed_mem_upper hm))
  cases ofLine_eq_iff.1 h with
  | definition _ hb hp =>
    exact ⟨fun hm => trimmed (mem_of_pair hp (.inl hm)),
      fun hm => trimmed (mem_of_pair hp (.inr hm))⟩

end Action

end DrillPost.Excellon
