import DrillPost.Proofs.Json.Documents
import DrillPost.Proofs.Settings.Overlays
import DrillPost.Proofs.Toml.Documents
import DrillPost.Settings.Validation

/-!
# Settings documents are read

A document of settings gives these settings. As TOML every number is read back; as JSON a number
is read as what the two roundings of the reader make of it.

* `Readings.overlay_named`: the overlay of a document with all settings by their names;
* `Toml.readSettings_writeSettings`: settings are read back;
* `Settings.reread`: settings as JSON has them (`Json.readSettings_writeSettings`).
-/

namespace DrillPost

open Number

namespace Readings

variable {α ε : Type} {r : Readings α ε} {document drill output : α}
  {speed feedRate safe feed bottom strict : α} {precision : Option α}

theorem optional_some {β : Type} {read : α → Except ε β} {v : α} {b : β} (h : read v = .ok b) :
    optional read (some v) = .ok (some b) := by
  rw [optional, h]
  rfl

theorem bind_optional_some {β γ : Type} (read : α → Except ε β) (v : α)
    (f : Option β → Except ε γ) :
    (optional read (some v) >>= f) = read v >>= fun b => f (some b) := by
  rw [optional]
  cases read v <;> rfl

/-- A document with all settings by their names, where the precision may be missing. Only its
numbers may be read as something else. -/
theorem overlay_named {turns : Nat} {places : Option (Option Nat)} {refuses : Bool}
    (hd : r.sectionOf sectionNames document =
      .ok (.named [("drill".toList, drill), ("output".toList, output)]))
    (hdrill : r.sectionOf drillingNames drill =
      .ok (.named [("spindle_speed".toList, speed), ("feed_rate".toList, feedRate),
        ("safe_z".toList, safe), ("feed_z".toList, feed), ("hole_bottom_z".toList, bottom)]))
    (houtput : r.sectionOf outputNames output =
      .ok (.named (precision.toList.map (("coordinate_precision".toList, ·)) ++
        [("strict".toList, strict)])))
    (hspeed : r.natural UInt32.size speed = .ok turns)
    (hprecision : optional r.precision precision = .ok places)
    (hstrict : r.boolean strict = .ok refuses) :
    r.overlay document = do
      let feedRate ← r.number feedRate
      let safeHeight ← r.number safe
      let feedHeight ← r.number feed
      let bottomHeight ← r.number bottom
      return { spindleSpeed := some (UInt32.ofNat turns), feedRate := some feedRate,
               safeHeight := some safeHeight, feedHeight := some feedHeight,
               bottomHeight := some bottomHeight, precision := places,
               strict := some refuses } := by
  have inDrill : optional (r.sectionOf drillingNames) (some drill) = .ok (some (.named _)) :=
    optional_some hdrill
  have inOutput : optional (r.sectionOf outputNames) (some output) = .ok (some (.named _)) :=
    optional_some houtput
  have fields : r.overlay document = do
      let speed ← optional (r.natural UInt32.size) (some speed)
      let feedRate ← optional r.number (some feedRate)
      let safeHeight ← optional r.number (some safe)
      let feedHeight ← optional r.number (some feed)
      let bottomHeight ← optional r.number (some bottom)
      let precision ← optional r.precision precision
      let strict ← optional r.boolean (some strict)
      return { spindleSpeed := speed.map UInt32.ofNat, feedRate, safeHeight, feedHeight,
               bottomHeight, precision, strict } := by
    unfold overlay
    rw [hd]
    change (optional (r.sectionOf drillingNames) (some drill) >>= fun _ =>
      optional (r.sectionOf outputNames) (some output) >>= fun _ => _) = _
    rw [inDrill]
    change (optional (r.sectionOf outputNames) (some output) >>= fun _ => _) = _
    rw [inOutput]
    cases precision <;> rfl
  rw [fields]
  simp only [bind_optional_some, Option.map_some, hspeed, hprecision, hstrict]
  rfl

end Readings

/-- The numbers of settings can be written, and so can the precision if there is one. -/
structure Settings.Writable (s : Settings) : Prop where
  feedRate : s.drilling.feedRate.isFinite = true
  safeHeight : s.drilling.safeHeight.isFinite = true
  feedHeight : s.drilling.feedHeight.isFinite = true
  bottomHeight : s.drilling.bottomHeight.isFinite = true
  precision : ∀ places ∈ s.output.precision, places ≤ greatestPrecision

theorem lt_size_of_le {places : Nat} (h : places ≤ greatestPrecision) : places < UInt64.size :=
  h.trans_lt (by decide)

namespace Toml

/-- The statements of a settings document. -/
def settingsStatements (s : Settings) : List Statement :=
  let pair (name : String) (v : Value) : Statement := .pair ⟨[], name.toList, v⟩
  [.header ⟨false, [], "drill".toList⟩,
    pair "spindle_speed" (.integer s.drilling.spindleSpeed.toNat),
    pair "feed_rate" (.float s.drilling.feedRate),
    pair "safe_z" (.float s.drilling.safeHeight),
    pair "feed_z" (.float s.drilling.feedHeight),
    pair "hole_bottom_z" (.float s.drilling.bottomHeight),
    .header ⟨false, [], "output".toList⟩] ++
  (s.output.precision.toList.map fun (places : Nat) =>
    pair "coordinate_precision" (.integer places)) ++
  [pair "strict" (.boolean s.output.strict)]

/-- The entries of a settings document. -/
def settingsEntries (s : Settings) : Entries :=
  [("drill".toList, .table .header
      [("spindle_speed".toList, .integer s.drilling.spindleSpeed.toNat),
        ("feed_rate".toList, .float s.drilling.feedRate),
        ("safe_z".toList, .float s.drilling.safeHeight),
        ("feed_z".toList, .float s.drilling.feedHeight),
        ("hole_bottom_z".toList, .float s.drilling.bottomHeight)]),
    ("output".toList, .table .header
      ((s.output.precision.map fun places => Value.integer places).toList.map
          (("coordinate_precision".toList, ·)) ++
        [("strict".toList, .boolean s.output.strict)]))]

theorem assemble_settingsStatements (s : Settings) :
    assemble (settingsStatements s) = some (settingsEntries s) := by
  unfold settingsStatements settingsEntries
  cases s.output.precision <;> rfl

/-- The line of a precision, if there is one. -/
def precisionLine : Option Nat → Text
  | some places => assignment "coordinate_precision" (digits places)
  | none => []

theorem writeSettings_eq (s : Settings) :
    writeSettings s = '[' :: ("drill".toList ++ ']' :: '\n' ::
      (assignment "spindle_speed" (digits s.drilling.spindleSpeed.toNat) ++
        (assignment "feed_rate" (numberStyle.write s.drilling.feedRate) ++
          (assignment "safe_z" (numberStyle.write s.drilling.safeHeight) ++
            (assignment "feed_z" (numberStyle.write s.drilling.feedHeight) ++
              (assignment "hole_bottom_z" (numberStyle.write s.drilling.bottomHeight) ++
                ('\n' :: '[' :: ("output".toList ++ ']' :: '\n' ::
                  (precisionLine s.output.precision ++
                    (assignment "strict" (Json.boolean s.output.strict) ++ [])))))))))) := by
  have drill : "[drill]\n".toList = '[' :: ("drill".toList ++ [']', '\n']) := rfl
  have output : "\n[output]\n".toList = '\n' :: '[' :: ("output".toList ++ [']', '\n']) := rfl
  unfold writeSettings
  rw [drill, output]
  cases s.output.precision <;>
    simp only [List.append_assoc, List.cons_append, List.nil_append, List.append_nil,
      precisionLine]

theorem reads_precisionLine {precision : Option Nat}
    (h : ∀ places ∈ precision, places ≤ greatestPrecision) {t : Text} {ss : List Statement}
    (ht : Reads t ss) :
    Reads (precisionLine precision ++ t)
      ((precision.toList.map fun places =>
        .pair ⟨[], "coordinate_precision".toList, .integer places⟩) ++ ss) := by
  cases precision with
  | none => exact ht
  | some places =>
    have few : (places : Int) ≤ greatestInteger := by
      have := h places rfl
      unfold greatestPrecision at this
      unfold greatestInteger
      omega
    exact ht.assignment _ ⟨by decide, by decide⟩ (writes_integer few)

theorem reads_writeSettings {s : Settings} (h : s.Writable) :
    Reads (writeSettings s) (settingsStatements s) := by
  have speed : (s.drilling.spindleSpeed.toNat : Int) ≤ greatestInteger := by
    have := s.drilling.spindleSpeed.toNat_lt
    unfold greatestInteger
    omega
  rw [writeSettings_eq]
  have strict := Reads.nil.assignment "strict" ⟨by decide, by decide⟩
    (writes_boolean s.output.strict)
  have output := (reads_precisionLine h.precision strict).header "output"
    ⟨by decide, by decide⟩
  have heights := output.lineFeed
    |>.assignment "hole_bottom_z" ⟨by decide, by decide⟩ (writes_float h.bottomHeight)
    |>.assignment "feed_z" ⟨by decide, by decide⟩ (writes_float h.feedHeight)
    |>.assignment "safe_z" ⟨by decide, by decide⟩ (writes_float h.safeHeight)
  exact heights
    |>.assignment "feed_rate" ⟨by decide, by decide⟩ (writes_float h.feedRate)
    |>.assignment "spindle_speed" ⟨by decide, by decide⟩ (writes_integer speed)
    |>.header "drill" ⟨by decide, by decide⟩

theorem overlay_settingsEntries {s : Settings} (h : s.Writable) :
    (readings.overlay (.table .header (settingsEntries s))).map (·.apply {}) = .ok s := by
  have speed : readings.natural UInt32.size (.integer s.drilling.spindleSpeed.toNat) =
      .ok s.drilling.spindleSpeed.toNat :=
    respects.natural rfl s.drilling.spindleSpeed.toNat_lt_size (by decide)
  have precision : Readings.optional readings.precision
      (s.output.precision.map fun places => .integer places) =
        .ok (s.output.precision.map some) := by
    cases hp : s.output.precision with
    | none => rfl
    | some places =>
      exact Readings.optional_some
        (respects.precision ⟨places, rfl, lt_size_of_le (h.precision places hp), rfl⟩)
  rw [Readings.overlay_named rfl rfl rfl speed precision rfl]
  obtain ⟨drilling, ⟨places, strict⟩⟩ := s
  refine congrArg Except.ok ?_
  simp only [Overlay.apply, Option.getD_some, UInt32.ofNat_toNat]
  cases places <;> rfl

/-- **Settings are read back** from their document. -/
theorem readSettings_writeSettings {s : Settings} (h : s.Writable) :
    readSettings (writeSettings s) = .ok s := by
  rw [readSettings, parse_of_reads (reads_writeSettings h), assemble_settingsStatements]
  exact overlay_settingsEntries h

end Toml

/-- The settings with every number as it is read once it has been written as JSON. -/
def Settings.reread (s : Settings) : Option Settings := do
  let feedRate ← Json.reread s.drilling.feedRate
  let safeHeight ← Json.reread s.drilling.safeHeight
  let feedHeight ← Json.reread s.drilling.feedHeight
  let bottomHeight ← Json.reread s.drilling.bottomHeight
  return { s with drilling := { s.drilling with feedRate, safeHeight, feedHeight, bottomHeight } }

namespace Json

/-- The value of a precision. -/
def precisionValue : Option Nat → Value
  | some places => .number (naturalOf places)
  | none => .null

/-- The value of a settings document, in which the numbers are written in some way. -/
def settingsValue (s : Settings) (rate safe feed bottom : Numeral) : Value :=
  .object
    [(some "drill".toList, .object
      [(some "spindle_speed".toList, .number (naturalOf s.drilling.spindleSpeed.toNat)),
        (some "feed_rate".toList, .number rate), (some "safe_z".toList, .number safe),
        (some "feed_z".toList, .number feed), (some "hole_bottom_z".toList, .number bottom)]),
      (some "output".toList, .object
        [(some "coordinate_precision".toList, precisionValue s.output.precision),
          (some "strict".toList, .boolean s.output.strict)])]

theorem writes_writeSettings {s : Settings} (h : s.Writable) :
    ∃ rate safe feed bottom : Numeral, rate.toBinary64? = reread s.drilling.feedRate ∧
      safe.toBinary64? = reread s.drilling.safeHeight ∧
      feed.toBinary64? = reread s.drilling.feedHeight ∧
      bottom.toBinary64? = reread s.drilling.bottomHeight ∧
      Writes (writeSettings s) (settingsValue s rate safe feed bottom) := by
  obtain ⟨rate, writesRate, hrate⟩ := writes_number h.feedRate
  obtain ⟨safe, writesSafe, hsafe⟩ := writes_number h.safeHeight
  obtain ⟨feed, writesFeed, hfeed⟩ := writes_number h.feedHeight
  obtain ⟨bottom, writesBottom, hbottom⟩ := writes_number h.bottomHeight
  refine ⟨rate, safe, feed, bottom, hrate, hsafe, hfeed, hbottom, ?_⟩
  have precision : Writes (match s.output.precision with
      | some places => digits places
      | none => "null".toList) (precisionValue s.output.precision) := by
    cases s.output.precision with
    | none => exact writes_null
    | some places => exact writes_digits places
  have drill := writes_prettyObject 1
    ⟨"spindle_speed", _, _, writes_digits s.drilling.spindleSpeed.toNat⟩
    [⟨"feed_rate", _, _, writesRate⟩, ⟨"safe_z", _, _, writesSafe⟩, ⟨"feed_z", _, _, writesFeed⟩,
      ⟨"hole_bottom_z", _, _, writesBottom⟩]
  have output := writes_prettyObject 1 ⟨"coordinate_precision", _, _, precision⟩
    [⟨"strict", _, _, writes_boolean s.output.strict⟩]
  exact writes_prettyObject 0 ⟨"drill", _, _, drill⟩ [⟨"output", _, _, output⟩]

theorem precision_precisionValue {places : Option Nat}
    (h : ∀ n ∈ places, n ≤ greatestPrecision) :
    readings.precision (precisionValue places) = .ok places := by
  cases places with
  | none => exact respectsOthers.precision (.inl ⟨rfl, rfl⟩)
  | some n =>
    exact respectsOthers.precision
      (.inr ⟨_, n, rfl, counts_naturalOf n, lt_size_of_le (h n rfl), rfl⟩)

/-- The reading of a number that is written as `x`. -/
theorem number_eq {n : Numeral} {x : Binary64} (h : n.toBinary64? = reread x) :
    readings.number (.number n) =
      match reread x with
      | some y => .ok y
      | none => .error .mismatch := by
  rw [← h]
  rfl

/-- **Settings are read** as what the roundings make of their numbers. -/
theorem readSettings_writeSettings {s : Settings} (h : s.Writable) :
    readSettings (writeSettings s) =
      match s.reread with
      | some t => .ok t
      | none => .error .mismatch := by
  obtain ⟨rate, safe, feed, bottom, hrate, hsafe, hfeed, hbottom, written⟩ :=
    writes_writeSettings h
  have speed : readings.natural UInt32.size (.number (naturalOf s.drilling.spindleSpeed.toNat)) =
      .ok s.drilling.spindleSpeed.toNat :=
    respectsOthers.natural ⟨_, rfl, counts_naturalOf _⟩ s.drilling.spindleSpeed.toNat_lt_size
      (by decide)
  have precision : Readings.optional readings.precision
      (some (precisionValue s.output.precision)) = .ok (some s.output.precision) :=
    Readings.optional_some (precision_precisionValue h.precision)
  rw [readSettings, document, parse_of_writes written]
  change (readings.overlay (settingsValue s rate safe feed bottom)).map (·.apply {}) = _
  rw [Readings.overlay_named rfl rfl rfl speed precision rfl, number_eq hrate, number_eq hsafe,
    number_eq hfeed, number_eq hbottom, Settings.reread]
  -- the first number that is none decides
  cases reread s.drilling.feedRate with
  | none => rfl
  | some feedRate =>
  cases reread s.drilling.safeHeight with
  | none => rfl
  | some safeHeight =>
  cases reread s.drilling.feedHeight with
  | none => rfl
  | some feedHeight =>
  cases reread s.drilling.bottomHeight with
  | none => rfl
  | some bottomHeight =>
    refine congrArg Except.ok ?_
    simp only [Overlay.apply, Option.getD_some, UInt32.ofNat_toNat]

end Json

end DrillPost
