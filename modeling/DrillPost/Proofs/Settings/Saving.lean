import DrillPost.Proofs.Files.Directories
import DrillPost.Proofs.Settings.Documents
import DrillPost.Proofs.Settings.Store
import DrillPost.Proofs.Text.Decoding

/-!
# Settings that are saved and loaded

Settings that pass the check are saved to every path that a file can be written to, in the format
that the name of the file says, and the directories on the way are made. What is loaded from the
file then are the same settings if the format is TOML. With JSON it depends on their numbers: the
reader rounds twice, so a number with many digits may come back as a neighbour, and settings that
are no longer admissible then are refused.

* `Settings.exists_save`: settings are saved;
* `Format.reread`: what is loaded from the file (`Settings.load_of_readText`);
* `Format.Keeps`: the settings that a format keeps, among them all with short numbers
  (`Settings.keeps_of_isShort`);
* `Settings.load_save`: when settings are loaded as they were saved.
-/

namespace DrillPost

open Number

/-! ## Numbers that are read back -/

/-- A number that is read as one that equals it is read back, with its sign. -/
theorem Json.eq_of_reread {x y : Binary64} (h : reread x = some y) (ha : x.agrees y = true) :
    y = x := by
  cases x with
  | nan => cases h
  | infinite negative => cases h
  | finite negative m =>
    rw [reread] at h
    obtain ⟨k, -, rfl⟩ := Option.map_eq_some_iff.1 h
    rw [Binary64.agrees_iff_units_eq rfl rfl] at ha
    have units : m.units = k.units := by
      cases negative <;> simpa [Binary64.units] using ha
    rw [Magnitude.units_injective units]

namespace Settings

variable {s t : Settings}

/-- The numbers of settings. -/
def numbers (s : Settings) : List Binary64 :=
  [s.drilling.feedRate, s.drilling.safeHeight, s.drilling.feedHeight, s.drilling.bottomHeight]

theorem writable_of_check (h : s.check = .ok s) : s.Writable := by
  have admissible := check_eq_ok_iff.1 h
  exact ⟨admissible.feedRate_finite, admissible.safe_finite, admissible.feed_finite,
    admissible.bottom_finite, admissible.precision⟩

/-- What settings are read as: each of their numbers on its own, and the rest as it is. -/
theorem reread_eq_some_iff : s.reread = some t ↔
    Json.reread s.drilling.feedRate = some t.drilling.feedRate ∧
      Json.reread s.drilling.safeHeight = some t.drilling.safeHeight ∧
      Json.reread s.drilling.feedHeight = some t.drilling.feedHeight ∧
      Json.reread s.drilling.bottomHeight = some t.drilling.bottomHeight ∧
      t.drilling.spindleSpeed = s.drilling.spindleSpeed ∧ t.output = s.output := by
  simp only [reread, Option.bind_eq_bind, Option.bind_eq_some_iff, Option.pure_def,
    Option.some.injEq]
  constructor
  · rintro ⟨rate, hrate, safe, hsafe, feed, hfeed, bottom, hbottom, rfl⟩
    exact ⟨hrate, hsafe, hfeed, hbottom, rfl, rfl⟩
  · rintro ⟨hrate, hsafe, hfeed, hbottom, hspeed, houtput⟩
    refine ⟨_, hrate, _, hsafe, _, hfeed, _, hbottom, ?_⟩
    rw [← hspeed, ← houtput]

/-- Settings that are read as equal ones are read back. -/
theorem eq_of_agrees (h : s.reread = some t) (ha : s.agrees t = true) : t = s := by
  obtain ⟨rate, safe, feed, bottom, -, -⟩ := reread_eq_some_iff.1 h
  simp only [agrees, Bool.and_eq_true, beq_iff_eq] at ha
  obtain ⟨⟨⟨⟨⟨hspeed, hrate⟩, hsafe⟩, hfeed⟩, hbottom⟩, houtput⟩ := ha
  have := Json.eq_of_reread rate hrate
  have := Json.eq_of_reread safe hsafe
  have := Json.eq_of_reread feed hfeed
  have := Json.eq_of_reread bottom hbottom
  cases s with
  | mk drilling output => cases drilling; cases t with
    | mk drilling output => cases drilling; simp_all

theorem reread_eq_self_iff : s.reread = some s ↔ ∀ x ∈ s.numbers, Json.reread x = some x := by
  simp [reread_eq_some_iff, numbers]

end Settings

/-! ## Documents in a format -/

namespace Format

/-- What is read from the document of settings in a format. -/
def reread : Format → Settings → Except SettingsFault Settings
  | .toml, s => .ok s
  | .json, s =>
    match s.reread with
    | some t => t.accept
    | none => .error (.json .mismatch)

/-- A format keeps settings: TOML all of them, JSON those whose numbers are read back. -/
def Keeps : Format → Settings → Prop
  | .toml, _ => True
  | .json, s => ∀ x ∈ s.numbers, Json.reread x = some x

variable {s : Settings}

theorem read_write_bind_accept (hs : s.check = .ok s) (format : Format) :
    (format.read (format.write s) >>= Settings.accept) = format.reread s := by
  have writable := Settings.writable_of_check hs
  cases format with
  | json =>
    rw [read, write, Json.readSettings_writeSettings writable, reread]
    cases s.reread <;> rfl
  | toml =>
    rw [read, write, Toml.readSettings_writeSettings writable]
    change s.accept = .ok s
    rw [Settings.accept, hs]
    rfl

theorem reread_of_keeps (hs : s.check = .ok s) {format : Format} (h : format.Keeps s) :
    format.reread s = .ok s := by
  cases format with
  | toml => rfl
  | json =>
    have accepted : s.accept = .ok s := by rw [Settings.accept, hs]; rfl
    simp only [reread, Settings.reread_eq_self_iff.2 h, accepted]

/-- What is read equals the settings only when the format keeps them. -/
theorem keeps_of_agrees {format : Format} {t : Settings} (h : format.reread s = .ok t)
    (ha : s.agrees t = true) : format.Keeps s := by
  cases format with
  | toml => trivial
  | json =>
    rw [reread] at h
    cases hr : s.reread with
    | none =>
      rw [hr] at h
      cases h
    | some u =>
      simp only [hr] at h
      obtain ⟨rfl, -⟩ := Settings.accept_eq_ok_iff.1 h
      rw [Settings.eq_of_agrees hr ha] at hr
      exact Settings.reread_eq_self_iff.1 hr

end Format

/-! ## Saved and loaded -/

/-- A number with few digits: together with the zero behind its point, if it has one, they are below
`2 ^ 53`, and the power of ten that scales them is one of the first 22. -/
def Json.IsShort (x : Binary64) : Prop :=
  match x with
  | .finite _ m =>
    significandOf (m.shortest numberStyle.tie) < significandEnd ∧
      (shiftOf (m.shortest numberStyle.tie)).natAbs ≤ Numeral.greatestPower
  | _ => False

theorem Json.reread_of_isShort {x : Binary64} (h : IsShort x) : reread x = some x := by
  cases x with
  | finite negative m => exact reread_eq_some h.1 h.2
  | nan => exact h.elim
  | infinite negative => exact h.elim

namespace Settings

variable {s : Settings} {p : Path} {d : Disk} {format : Format}

theorem keeps_of_isShort (format : Format) (h : ∀ x ∈ s.numbers, Json.IsShort x) :
    format.Keeps s := by
  cases format with
  | toml => trivial
  | json => exact fun x hx => Json.reread_of_isShort (h x hx)

/-- Settings that pass the check are saved, and their document is what the file holds then. -/
theorem exists_save (hs : s.check = .ok s) (hf : Format.ofPath p = some format) (hp : d.Open p) :
    ∃ after, s.save p d = (after, none) ∧ readText p after = .ok (format.write s) := by
  obtain ⟨made, after, hm, hw⟩ := hp.exists_write (Utf8.encode (format.write s))
  refine ⟨after, by simp only [save, hs, hf, hm, hw], ?_⟩
  obtain ⟨l, -, -, located⟩ := Disk.exists_set_of_write hw
  exact readText_eq_ok_iff.2 ⟨_, Disk.read_eq_ok_iff.2 ⟨l, located⟩, Utf8.decode_encode _⟩

theorem load_of_readText (hs : s.check = .ok s) (hf : Format.ofPath p = some format)
    (hr : readText p d = .ok (format.write s)) : load p d = format.reread s := by
  rw [load, hr, hf]
  exact Format.read_write_bind_accept hs format

/-- **Settings are saved and loaded.** -/
theorem load_save (hs : s.check = .ok s) (hf : Format.ofPath p = some format) (hp : d.Open p) :
    ∃ after, s.save p d = (after, none) ∧ load p after = format.reread s ∧
      ((∃ t, load p after = .ok t ∧ s.agrees t = true) ↔ format.Keeps s) ∧
      (format.Keeps s → load p after = .ok s) ∧
      ((∀ x ∈ s.numbers, Json.IsShort x) → format.Keeps s) := by
  obtain ⟨after, saved, text⟩ := exists_save hs hf hp
  have loaded := load_of_readText hs hf text
  refine ⟨after, saved, loaded, ?_, ?_, keeps_of_isShort format⟩
  · rw [loaded]
    refine ⟨fun ⟨t, ht, ha⟩ => Format.keeps_of_agrees ht ha, fun h => ⟨s, ?_, ?_⟩⟩
    · exact Format.reread_of_keeps hs h
    · exact (check_eq_ok_iff.1 hs).agrees_self
  · intro h
    rw [loaded, Format.reread_of_keeps hs h]

/-- The defaults are saved below a directory that is missing. -/
theorem load_save_defaults :
    ∃ after, save {} ⟨"new/config.toml"⟩ {} = (after, none) ∧
      load ⟨"new/config.toml"⟩ after = .ok {} := by
  have checked : Settings.check {} = .ok {} := by decide +kernel
  have named : Format.ofPath ⟨"new/config.toml"⟩ = some .toml := by decide
  have opened : Disk.Open {} ⟨"new/config.toml"⟩ :=
    ⟨⟨["new"], "config.toml", _, by decide, .made (.here rfl) (by decide), by decide⟩, by decide⟩
  obtain ⟨after, saved, -, -, loaded, -⟩ := load_save checked named opened
  exact ⟨after, saved, loaded trivial⟩

/-- Settings with a feed rate of 17 digits. -/
def longRate : Settings :=
  { drilling := { feedRate := .ofDecimal false ⟨12345678901234567, -14⟩ } }

/-- Not all settings are loaded as they were saved. -/
theorem not_load_save_longRate :
    ¬ ∀ (s : Settings) (p : Path) (d : Disk) (format : Format), s.check = .ok s →
      Format.ofPath p = some format → d.Open p →
        ∃ after t, s.save p d = (after, none) ∧ load p after = .ok t ∧ s.agrees t = true := by
  intro h
  have checked : longRate.check = .ok longRate := by decide +kernel
  have named : Format.ofPath ⟨"c.json"⟩ = some .json := by decide
  have opened : Disk.Open {} ⟨"c.json"⟩ :=
    ⟨⟨[], "c.json", _, by decide, .here rfl, by decide⟩, by decide⟩
  obtain ⟨after, t, saved, loaded, ha⟩ := h longRate ⟨"c.json"⟩ {} .json checked named opened
  obtain ⟨other, saved', text⟩ := exists_save checked named opened
  obtain rfl : after = other := (Prod.mk.inj (saved.symm.trans saved')).1
  rw [load_of_readText checked named text] at loaded
  have kept := Format.keeps_of_agrees loaded ha longRate.drilling.feedRate (by simp [numbers])
  exact absurd kept (by decide +kernel)

end Settings

end DrillPost
