import DrillPost.Settings.Validation
import DrillPost.Proofs.Number.Value

/-!
# What the check of settings guarantees

The conditions on settings stand in an order. Settings that meet all of them pass the check, and of
the others the check names the first condition that they violate. Numbers that are not finite
violate a condition of their own in front of the comparisons, so these only ever decide about
rationals.

* `Settings.Admissible`: the conditions;
* `Violation.all`, `Settings.Avoids`: the violations in their order, and what it is to avoid one
  (`Settings.admissible_iff`);
* `Settings.violation_eq_find?`: the violation that is found;
* `Settings.check_eq_ok_iff`, `Settings.check_eq_error_iff`: the settings that pass, and what is
  said of the others.
-/

namespace DrillPost

open Number

/-! ## The conditions -/

/-- What settings must be. -/
structure Settings.Admissible (s : Settings) : Prop where
  spindle : 1 ≤ s.drilling.spindleSpeed.toNat
  feedRate_finite : s.drilling.feedRate.isFinite = true
  feedRate_pos : 0 < s.drilling.feedRate.value
  safe_finite : s.drilling.safeHeight.isFinite = true
  feed_finite : s.drilling.feedHeight.isFinite = true
  bottom_finite : s.drilling.bottomHeight.isFinite = true
  bottom_lt_feed : s.drilling.bottomHeight.value < s.drilling.feedHeight.value
  feed_le_safe : s.drilling.feedHeight.value ≤ s.drilling.safeHeight.value
  precision : ∀ places ∈ s.output.precision, places ≤ 10

/-- The violations, in the order in which they are looked for. -/
def Violation.all : List Violation :=
  [.spindleStandsStill, .feedRateNotPositive, .heightNotFinite .safe, .heightNotFinite .feed,
    .heightNotFinite .bottom, .safeBelowFeed, .bottomNotBelowFeed, .precisionTooGreat]

/-- The height with a given name. -/
def Drilling.height (d : Drilling) : Height → Binary64
  | .safe => d.safeHeight
  | .feed => d.feedHeight
  | .bottom => d.bottomHeight

namespace Settings

/-- What it is to avoid a violation. Heights are compared as the rationals that they stand for. -/
def Avoids (s : Settings) : Violation → Prop
  | .spindleStandsStill => 1 ≤ s.drilling.spindleSpeed.toNat
  | .feedRateNotPositive => s.drilling.feedRate.isFinite = true ∧ 0 < s.drilling.feedRate.value
  | .heightNotFinite height => (s.drilling.height height).isFinite = true
  | .safeBelowFeed => s.drilling.feedHeight.value ≤ s.drilling.safeHeight.value
  | .bottomNotBelowFeed => s.drilling.bottomHeight.value < s.drilling.feedHeight.value
  | .precisionTooGreat => ∀ places ∈ s.output.precision, places ≤ 10

variable {s : Settings}

theorem admissible_iff : s.Admissible ↔ ∀ v, s.Avoids v := by
  constructor
  · intro h v
    cases v with
    | spindleStandsStill => exact h.spindle
    | feedRateNotPositive => exact ⟨h.feedRate_finite, h.feedRate_pos⟩
    | heightNotFinite height =>
      cases height with
      | safe => exact h.safe_finite
      | feed => exact h.feed_finite
      | bottom => exact h.bottom_finite
    | safeBelowFeed => exact h.feed_le_safe
    | bottomNotBelowFeed => exact h.bottom_lt_feed
    | precisionTooGreat => exact h.precision
  · intro h
    exact ⟨h .spindleStandsStill, (h .feedRateNotPositive).1, (h .feedRateNotPositive).2,
      h (.heightNotFinite .safe), h (.heightNotFinite .feed), h (.heightNotFinite .bottom),
      h .bottomNotBelowFeed, h .safeBelowFeed, h .precisionTooGreat⟩

theorem mem_all (v : Violation) : v ∈ Violation.all := by
  cases v with
  | heightNotFinite height => cases height <;> decide
  | _ => decide

/-- The first violation, in the order in which they are looked for. -/
def FirstViolation (s : Settings) (v : Violation) : Prop :=
  ∃ before after, Violation.all = before ++ v :: after ∧ ¬ s.Avoids v ∧ ∀ w ∈ before, s.Avoids w

/-! ## The check -/

theorem spindleSpeed_eq_zero_iff :
    s.drilling.spindleSpeed = 0 ↔ ¬ s.Avoids .spindleStandsStill := by
  rw [← UInt32.toNat_inj, Avoids, UInt32.toNat_zero]
  omega

theorem feedRate_le_zero_iff :
    (!s.drilling.feedRate.isFinite || s.drilling.feedRate.le .zero) = true ↔
      ¬ s.Avoids .feedRateNotPositive := by
  cases finite : s.drilling.feedRate.isFinite with
  | false => simp [Avoids, finite]
  | true =>
    rw [Bool.not_true, Bool.false_or, Binary64.le_iff_units_le finite rfl,
      ← Binary64.value_le_value_iff, Binary64.value_zero]
    simp [Avoids, finite]

theorem isFinite_eq_false_iff (height : Height) :
    (!(s.drilling.height height).isFinite) = true ↔ ¬ s.Avoids (.heightNotFinite height) := by
  simp [Avoids]

/-- Heights are compared when they are finite. -/
theorem safeHeight_lt_iff (safe : s.Avoids (.heightNotFinite .safe))
    (feed : s.Avoids (.heightNotFinite .feed)) :
    s.drilling.safeHeight.lt s.drilling.feedHeight = true ↔ ¬ s.Avoids .safeBelowFeed := by
  simp only [Avoids, Drilling.height] at safe feed
  rw [Binary64.lt_iff_units_lt safe feed, ← Binary64.value_lt_value_iff, Avoids, not_le]

theorem feedHeight_le_iff (feed : s.Avoids (.heightNotFinite .feed))
    (bottom : s.Avoids (.heightNotFinite .bottom)) :
    s.drilling.feedHeight.le s.drilling.bottomHeight = true ↔
      ¬ s.Avoids .bottomNotBelowFeed := by
  simp only [Avoids, Drilling.height] at feed bottom
  rw [Binary64.le_iff_units_le feed bottom, ← Binary64.value_le_value_iff, Avoids, not_lt]

theorem precision_any_iff :
    s.output.precision.any (greatestPrecision < ·) = true ↔ ¬ s.Avoids .precisionTooGreat := by
  have greatest : greatestPrecision = 10 := rfl
  simp only [Avoids, ← greatest]
  cases s.output.precision with
  | none => simp
  | some places => simp

open Classical in
/-- **The check looks for a violation** in the order of the conditions. -/
theorem violation_eq_find? (s : Settings) :
    s.violation = Violation.all.find? (¬ s.Avoids ·) := by
  have safeFinite := isFinite_eq_false_iff (s := s) .safe
  have feedFinite := isFinite_eq_false_iff (s := s) .feed
  have bottomFinite := isFinite_eq_false_iff (s := s) .bottom
  simp only [Drilling.height] at safeFinite feedFinite bottomFinite
  simp only [violation, Drilling.violation, Output.violation, spindleSpeed_eq_zero_iff,
    feedRate_le_zero_iff, safeFinite, feedFinite, bottomFinite, precision_any_iff, Violation.all]
  by_cases spindle : s.Avoids .spindleStandsStill
  swap
  · simp [spindle]
  by_cases rate : s.Avoids .feedRateNotPositive
  swap
  · simp [spindle, rate]
  by_cases safe : s.Avoids (.heightNotFinite .safe)
  swap
  · simp [spindle, rate, safe]
  by_cases feed : s.Avoids (.heightNotFinite .feed)
  swap
  · simp [spindle, rate, safe, feed]
  by_cases bottom : s.Avoids (.heightNotFinite .bottom)
  swap
  · simp [spindle, rate, safe, feed, bottom]
  -- From here on the heights are finite, and the comparisons are those of rationals.
  simp only [safeHeight_lt_iff safe feed, feedHeight_le_iff feed bottom]
  by_cases high : s.Avoids .safeBelowFeed
  swap
  · simp [spindle, rate, safe, feed, bottom, high]
  by_cases low : s.Avoids .bottomNotBelowFeed
  swap
  · simp [spindle, rate, safe, feed, bottom, high, low]
  by_cases precision : s.Avoids .precisionTooGreat
  · simp [spindle, rate, safe, feed, bottom, high, low, precision]
  · simp [spindle, rate, safe, feed, bottom, high, low, precision]

theorem violation_eq_none_iff : s.violation = none ↔ s.Admissible := by
  rw [violation_eq_find?, List.find?_eq_none, admissible_iff]
  simp [mem_all]

/-- **The violation that is found** is the first one. -/
theorem violation_eq_some_iff {v : Violation} : s.violation = some v ↔ s.FirstViolation v := by
  rw [violation_eq_find?, List.find?_eq_some_iff_append]
  simp only [decide_eq_true_eq, Bool.not_eq_true', decide_eq_false_iff_not, not_not]
  constructor
  · rintro ⟨violated, before, after, order, avoided⟩
    exact ⟨before, after, order, violated, avoided⟩
  · rintro ⟨before, after, order, violated, avoided⟩
    exact ⟨violated, before, after, order, avoided⟩

theorem FirstViolation.not_admissible {v : Violation} (h : s.FirstViolation v) :
    ¬ s.Admissible := by
  obtain ⟨before, after, -, violated, -⟩ := h
  exact fun admissible => violated (admissible_iff.1 admissible v)

/-- Settings are admissible, or they violate a first condition. -/
theorem admissible_or_firstViolation (s : Settings) :
    s.Admissible ∨ ∃ v, s.FirstViolation v := by
  cases h : s.violation with
  | none => exact .inl (violation_eq_none_iff.1 h)
  | some v => exact .inr ⟨v, violation_eq_some_iff.1 h⟩

/-- **The settings that pass the check** are those that meet all conditions. -/
theorem check_eq_ok_iff : s.check = .ok s ↔ s.Admissible := by
  rw [← violation_eq_none_iff, check]
  cases s.violation <;> simp

/-- **The violation that the check names** is the first one. -/
theorem check_eq_error_iff {v : Violation} : s.check = .error v ↔ s.FirstViolation v := by
  rw [← violation_eq_some_iff, check]
  cases s.violation <;> simp

/-! ## Admissible settings -/

namespace Admissible

variable (h : s.Admissible)

include h

theorem spindle_ne_zero : s.drilling.spindleSpeed ≠ 0 :=
  fun zero => spindleSpeed_eq_zero_iff.1 zero h.spindle

theorem feedRate_units_pos : 0 < s.drilling.feedRate.units := by
  have positive := h.feedRate_pos
  rwa [← Binary64.value_zero, Binary64.value_lt_value_iff] at positive

theorem feed_units_le_safe : s.drilling.feedHeight.units ≤ s.drilling.safeHeight.units :=
  Binary64.value_le_value_iff.1 h.feed_le_safe

theorem bottom_units_lt_feed : s.drilling.bottomHeight.units < s.drilling.feedHeight.units :=
  Binary64.value_lt_value_iff.1 h.bottom_lt_feed

/-- Numbers that are finite are equal to themselves. -/
theorem agrees_self : s.agrees s = true := by
  simp [agrees, Binary64.agrees_iff_units_eq h.feedRate_finite h.feedRate_finite,
    Binary64.agrees_iff_units_eq h.safe_finite h.safe_finite,
    Binary64.agrees_iff_units_eq h.feed_finite h.feed_finite,
    Binary64.agrees_iff_units_eq h.bottom_finite h.bottom_finite]

end Admissible

/-- A feed rate that is no number comes before heights in the wrong order. -/
example : Settings.violation { drilling := { feedRate := .nan, safeHeight := .zero } } =
    some .feedRateNotPositive := by decide +kernel

end Settings

end DrillPost
