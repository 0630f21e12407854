import DrillPost.Proofs.Settings.Validation
import DrillPost.Settings.Store

/-!
# Which settings are used

Settings come from the file that the user names, or else from the one at the usual place, or else
they are the defaults. A file that is there is never passed over: when it cannot be read, or its
name says no format, or what it holds is no settings document, or the settings are not admissible,
there are no settings at all. No settings that violate a condition are loaded, used or saved.

* `Settings.HeldBy`: the settings that a file holds (`Settings.load_eq_ok_iff`);
* `Settings.Found`: the settings that are used (`Settings.resolve_eq_ok_iff`);
* `Settings.check_first_violation`: what the check lets through, and what it says of the rest.
-/

namespace DrillPost.Settings

variable {d : Disk} {s : Settings}

/-- A file holds settings: it is a text in the format that its name says, which gives the settings,
and these are admissible. -/
structure HeldBy (d : Disk) (p : Path) (s : Settings) : Prop where
  document : ∃ octets t format, d.read p = .ok octets ∧ Utf8.decode octets = some t ∧
    Format.ofPath p = some format ∧ format.read t = .ok s
  admissible : s.Admissible

/-- The settings that are used: those in the file that the user names, else those in the file at the
usual place, if there is one, else the defaults. -/
inductive Found (d : Disk) : Option Path → Option Path → Settings → Prop
  | named {p : Path} {usual : Option Path} {s : Settings} (h : HeldBy d p s) :
      Found d (some p) usual s
  | usual {p : Path} {s : Settings} (hf : d.isFile p = true) (h : HeldBy d p s) :
      Found d none (some p) s
  | defaults {usual : Option Path} (h : ∀ p ∈ usual, d.isFile p = false) : Found d none usual {}

theorem accept_eq_ok_iff {t : Settings} : accept t = .ok s ↔ t = s ∧ s.Admissible := by
  rcases admissible_or_firstViolation t with admissible | ⟨v, first⟩
  · rw [accept, check_eq_ok_iff.2 admissible]
    constructor
    · rintro ⟨⟩
      exact ⟨rfl, admissible⟩
    · rintro ⟨rfl, -⟩
      rfl
  · rw [accept, check_eq_error_iff.2 first]
    refine iff_of_false (by rintro ⟨⟩) ?_
    rintro ⟨rfl, admissible⟩
    exact first.not_admissible admissible

/-- The fault that inadmissible settings are refused with. -/
theorem accept_eq_error_iff {fault : SettingsFault} :
    s.accept = .error fault ↔
      ∃ v, s.FirstViolation v ∧ fault = .invalid v.key v.reason := by
  constructor
  · intro h
    rcases admissible_or_firstViolation s with admissible | ⟨v, first⟩
    · rw [accept, check_eq_ok_iff.2 admissible] at h
      cases h
    · rw [accept, check_eq_error_iff.2 first] at h
      cases h
      exact ⟨v, first, rfl⟩
  · rintro ⟨v, first, rfl⟩
    rw [accept, check_eq_error_iff.2 first]
    rfl

theorem readText_eq_ok_iff {p : Path} {t : Text} :
    readText p d = .ok t ↔ ∃ octets, d.read p = .ok octets ∧ Utf8.decode octets = some t := by
  unfold readText
  cases d.read p with
  | error fault => simp
  | ok octets => cases h : Utf8.decode octets <;> simp [h]

theorem bind_eq_ok_iff {ε α β : Type} {x : Except ε α} {f : α → Except ε β} {b : β} :
    x >>= f = .ok b ↔ ∃ a, x = .ok a ∧ f a = .ok b := by
  cases x with
  | error fault =>
    refine iff_of_false (by rintro ⟨⟩) ?_
    rintro ⟨a, ⟨⟩, -⟩
  | ok a =>
    refine ⟨fun h => ⟨a, rfl, h⟩, ?_⟩
    rintro ⟨c, hc, h⟩
    cases hc
    exact h

/-- What is loaded from a file are the settings that it holds. -/
theorem load_eq_ok_iff {p : Path} : load p d = .ok s ↔ HeldBy d p s := by
  rw [load, bind_eq_ok_iff]
  constructor
  · rintro ⟨t, ht, h⟩
    obtain ⟨octets, hr, hd⟩ := readText_eq_ok_iff.1 ht
    cases hf : Format.ofPath p with
    | none =>
      rw [hf] at h
      cases h
    | some format =>
      simp only [hf, bind_eq_ok_iff] at h
      obtain ⟨found, hs, hc⟩ := h
      obtain ⟨rfl, admissible⟩ := accept_eq_ok_iff.1 hc
      exact ⟨⟨octets, t, format, hr, hd, hf, hs⟩, admissible⟩
  · rintro ⟨⟨octets, t, format, hr, hd, hf, hs⟩, admissible⟩
    refine ⟨t, readText_eq_ok_iff.2 ⟨octets, hr, hd⟩, ?_⟩
    simp only [hf, bind_eq_ok_iff]
    exact ⟨s, hs, accept_eq_ok_iff.2 ⟨rfl, admissible⟩⟩

/-- **The settings that are used** are those that were found. -/
theorem resolve_eq_ok_iff {named usual : Option Path} :
    resolve named usual d = .ok s ↔ Found d named usual s := by
  cases named with
  | some p =>
    refine load_eq_ok_iff.trans ⟨.named, fun h => ?_⟩
    cases h with
    | named held => exact held
  | none =>
    unfold resolve origin
    cases hu : usual.filter d.isFile with
    | some p =>
      obtain ⟨rfl, file⟩ := Option.filter_eq_some_iff.1 hu
      refine load_eq_ok_iff.trans ⟨.usual file, fun h => ?_⟩
      cases h with
      | usual _ held => exact held
      | defaults missing => simp [missing] at file
    | none =>
      have missing : ∀ p ∈ usual, d.isFile p = false := by
        simpa [Option.filter_eq_none_iff] using hu
      constructor
      · intro h
        cases h
        exact .defaults missing
      · intro h
        cases h with
        | usual file held => simp [file] at missing
        | defaults _ => rfl

/-! ## What gets through -/

theorem admissible_defaults : Admissible {} :=
  check_eq_ok_iff.1 (by decide +kernel)

theorem Found.admissible {named usual : Option Path} (h : Found d named usual s) :
    s.Admissible := by
  cases h with
  | named held => exact held.admissible
  | usual _ held => exact held.admissible
  | defaults _ => exact admissible_defaults

/-- Settings that violate a condition are not saved, and nothing is written. -/
theorem save_of_firstViolation {p : Path} {v : Violation} (h : s.FirstViolation v) :
    s.save p d = (d, some (.invalid v.key v.reason)) := by
  simp only [save, check_eq_error_iff.2 h]
  rfl

/-- **Only admissible settings get through.** The check lets settings pass exactly when they meet
all conditions, whatever numbers they hold, and otherwise names the setting at fault in the first
condition that is violated. Settings that are loaded from a file or that are found for use are
admissible, and so are settings that are saved, or of which anything is written: the others are
refused, and the disk is left as it is. -/
theorem check_first_violation :
    (∀ s : Settings, (s.check = .ok s ↔ s.Admissible) ∧
      (∀ v, s.check = .error v ↔ s.FirstViolation v) ∧
      ∀ fault, s.accept = .error fault ↔
        ∃ v, s.FirstViolation v ∧ fault = .invalid v.key v.reason) ∧
      Violation.all.map Violation.key =
        ["drill.spindle_speed", "drill.feed_rate", "drill.safe_z", "drill.feed_z",
          "drill.hole_bottom_z", "drill.safe_z", "drill.hole_bottom_z",
          "output.coordinate_precision"] ∧
      (∀ (s : Settings) p d, load p d = .ok s → s.Admissible) ∧
      (∀ (s : Settings) named usual d, resolve named usual d = .ok s → s.Admissible) ∧
      ∀ (s : Settings) p d, (s.save p d).2 = none ∨ (s.save p d).1 ≠ d → s.Admissible := by
  refine ⟨fun s => ⟨check_eq_ok_iff, fun v => check_eq_error_iff, fun _ => accept_eq_error_iff⟩,
    rfl, fun s p d h => (load_eq_ok_iff.1 h).admissible,
    fun s named usual d h => (resolve_eq_ok_iff.1 h).admissible, fun s p d h => ?_⟩
  rcases admissible_or_firstViolation s with admissible | ⟨v, first⟩
  · exact admissible
  · rw [save_of_firstViolation first] at h
    rcases h with h | h
    · cases h
    · exact absurd rfl h

end DrillPost.Settings
