import DrillPost.Console.Run
import DrillPost.Proofs.Conversion.Files
import DrillPost.Proofs.Conversion.Warnings
import DrillPost.Proofs.Settings.Store

/-!
# How a run ends

A run looks for its settings, reads the drill file, refuses documents that a strict conversion does
not accept, and writes the program. The first of these that fails decides the exit code, and then
nothing on the disk has changed.

* `Configured`, `Readable`, `Refused`, `Writable`: what the exit code tells;
* `Ending`: the ways in which a run can end (`ending_run`);
* `ExitCodeTells`, `exitCode_run`: what the exit code of a run tells, and what the run leaves
  behind.
-/

namespace DrillPost.Console

open Conversion

variable (buildDate : String) (usual : Option Path) (a : Arguments) (d : Disk)

/-- There are settings to use. -/
def Configured : Prop := ∃ s, Settings.Found d a.settings usual s

/-- The drill file can be read to its end. -/
def Readable : Prop := ∃ octets, d.read a.input = .ok octets

/-- The arguments or the settings ask for a strict conversion, and the document in the drill file
has a malformed number. -/
def Refused : Prop :=
  ∃ s octets, Settings.Found d a.settings usual s ∧ d.read a.input = .ok octets ∧
    (a.strict = true ∨ s.output.strict = true) ∧
    ∃ before line after, Text.lines (Utf8.decodeLossy octets) = before ++ line :: after ∧
      MalformedAt before line

/-- The path of the program can be written to. -/
def Writable : Prop := ∀ fault, ¬ d.Unwritable a.outputPath fault

/-! ## Settings and arguments -/

section

variable {s : Settings}

theorem strict_strengthen :
    (a.strengthen s).output.strict = true ↔ a.strict = true ∨ s.output.strict = true := by
  unfold Arguments.strengthen
  cases a.strict <;> simp

/-- A strict conversion gives the same program and the same summary as any other. -/
theorem convertText_strengthen (document : Text) :
    convertText (a.strengthen s) document = convertText s document := by
  unfold Arguments.strengthen
  cases a.strict <;> rfl

variable {usual a d}

theorem refused_iff {octets : List UInt8} (hs : Settings.Found d a.settings usual s)
    (hr : d.read a.input = .ok octets) :
    Refused usual a d ↔ (a.strengthen s).output.strict = true ∧
      0 < (convertText (a.strengthen s) (Utf8.decodeLossy octets)).2.malformedCount := by
  rw [strict_strengthen, convertText_strengthen]
  have malformed := malformedCount_pos_iff s (Text.lines (Utf8.decodeLossy octets))
  constructor
  · rintro ⟨s', octets', hs', hr', strict, line⟩
    cases (Settings.resolve_eq_ok_iff.2 hs).symm.trans (Settings.resolve_eq_ok_iff.2 hs')
    cases hr.symm.trans hr'
    exact ⟨strict, malformed.2 line⟩
  · rintro ⟨strict, positive⟩
    exact ⟨s, octets, hs, hr, strict, malformed.1 positive⟩

theorem not_refused {octets : List UInt8} (hs : Settings.Found d a.settings usual s)
    (hr : d.read a.input = .ok octets)
    (clean : (a.strengthen s).output.strict = true →
      (convertText (a.strengthen s) (Utf8.decodeLossy octets)).2.malformedCount = 0) :
    ¬ Refused usual a d := by
  rw [refused_iff hs hr]
  rintro ⟨strict, positive⟩
  exact positive.ne' (clean strict)

end

/-! ## The ways in which a run can end -/

/-- How a run ends: the exit code, and the disk that it leaves behind. -/
inductive Ending : Nat → Disk → Prop
  | unconfigured (h : ¬ Configured usual a d) : Ending 4 d
  | unreadable (hc : Configured usual a d) (h : ¬ Readable a d) : Ending 1 d
  | refused (hc : Configured usual a d) (hr : Readable a d) (h : Refused usual a d) : Ending 3 d
  | unwritable (hc : Configured usual a d) (hr : Readable a d) (hf : ¬ Refused usual a d)
      (h : ¬ Writable a d) : Ending 2 d
  | written {s : Settings} {octets : List UInt8} {after : Disk}
      (hs : Settings.Found d a.settings usual s) (hr : d.read a.input = .ok octets)
      (hf : ¬ Refused usual a d)
      (h : d.write a.outputPath
        (Utf8.encode (convertText s (Utf8.decodeLossy octets)).1) = .ok after) : Ending 0 after

/-- A run without settings. -/
theorem run_of_error {fault : SettingsFault}
    (h : Settings.resolve a.settings usual d = .error fault) :
    (run buildDate usual a d).exitCode = 4 ∧ (run buildDate usual a d).disk = d := by
  have none_found : Settings.ofOrigin d (Settings.origin a.settings usual d) = .error fault := h
  unfold run
  simp only [none_found]
  exact ⟨rfl, trivial⟩

/-- A run with settings is the conversion of a file. -/
theorem run_of_ok {s : Settings} (h : Settings.resolve a.settings usual d = .ok s) :
    let converted := convertFile (a.strengthen s) a.input a.outputPath d
    (run buildDate usual a d).disk = converted.disk ∧
      (∀ fault, converted.result = .error fault →
        (run buildDate usual a d).exitCode = fault.exitCode) ∧
      ∀ summary, converted.result = .ok summary → (run buildDate usual a d).exitCode = 0 := by
  intro converted
  have found : Settings.ofOrigin d (Settings.origin a.settings usual d) = .ok s := h
  unfold run
  simp only [found]
  cases hc : converted.result with
  | error fault =>
    refine ⟨rfl, fun other same => ?_, nofun⟩
    cases same
    rfl
  | ok summary => exact ⟨rfl, nofun, fun _ _ => rfl⟩

/-- **Every run ends in one of these ways.** -/
theorem ending_run :
    Ending usual a d (run buildDate usual a d).exitCode (run buildDate usual a d).disk := by
  cases hs : Settings.resolve a.settings usual d with
  | error fault =>
    obtain ⟨code, same⟩ := run_of_error buildDate usual a d hs
    rw [code, same]
    refine .unconfigured ?_
    rintro ⟨s, found⟩
    cases hs.symm.trans (Settings.resolve_eq_ok_iff.2 found)
  | ok s =>
    have found := Settings.resolve_eq_ok_iff.1 hs
    obtain ⟨disk, failed, ended⟩ := run_of_ok buildDate usual a d hs
    rw [disk]
    have readable {octets : List UInt8} :
        openStream d a.input = .ok { octets } ↔ d.read a.input = .ok octets :=
      openStream_eq_ok_iff a.input d
    -- The stream of the drill file is that of its octets, or the file cannot be read.
    rcases convertOpened_cases (a.strengthen s) a.input a.outputPath d (openStream d a.input) with
      ⟨fault, cause, result, same⟩ | ⟨octets, opened, clean, result, written⟩
    · rw [failed fault result, convertFile, same]
      cases cause with
      | inputOpen opened =>
        refine .unreadable ⟨s, found⟩ ?_
        rintro ⟨octets, hr⟩
        cases opened.symm.trans (readable.2 hr)
      | inputRead opened =>
        refine .unreadable ⟨s, found⟩ ?_
        rintro ⟨octets, hr⟩
        cases opened.symm.trans (readable.2 hr)
      | strictViolation opened strict positive =>
        have hr := readable.1 opened
        exact .refused ⟨s, found⟩ ⟨_, hr⟩ ((refused_iff found hr).2 ⟨strict, positive⟩)
      | outputWrite opened clean unwritable =>
        have hr := readable.1 opened
        exact .unwritable ⟨s, found⟩ ⟨_, hr⟩ (not_refused found hr clean)
          fun writable => writable _ unwritable
    · have hr := readable.1 opened
      have notRefused := not_refused found hr clean
      rw [convertText_strengthen] at written
      rw [ended _ result]
      exact .written found hr notRefused written

variable {usual a d}

theorem Ending.code_iff {code : Nat} {after : Disk} (h : Ending usual a d code after) :
    (code = 4 ↔ ¬ Configured usual a d) ∧
      (code = 1 ↔ Configured usual a d ∧ ¬ Readable a d) ∧
      (code = 3 ↔ Configured usual a d ∧ Readable a d ∧ Refused usual a d) ∧
      (code = 2 ↔ Configured usual a d ∧ Readable a d ∧ ¬ Refused usual a d ∧ ¬ Writable a d) ∧
      (code = 0 ↔ Configured usual a d ∧ Readable a d ∧ ¬ Refused usual a d ∧ Writable a d) := by
  cases h with
  | unconfigured h => simp [h]
  | unreadable hc h => simp [hc, h]
  | refused hc hr h => simp [hc, hr, h]
  | unwritable hc hr hf h => simp [hc, hr, hf, h]
  | @written s octets after hs hr hf h =>
    have configured : Configured usual a d := ⟨s, hs⟩
    have readable : Readable a d := ⟨octets, hr⟩
    have writable : Writable a d := Disk.exists_write_eq_ok_iff.1 ⟨after, h⟩
    simp [configured, readable, hf, writable]

theorem Ending.eq_of_ne_zero {code : Nat} {after : Disk} (h : Ending usual a d code after)
    (hn : code ≠ 0) : after = d := by
  cases h with
  | written hs hr hf h => exact absurd rfl hn
  | _ => rfl

/-- What a run that ends well leaves behind. -/
theorem Ending.exists_of_zero {after : Disk} (h : Ending usual a d 0 after) :
    ∃ s octets l, Settings.Found d a.settings usual s ∧ d.read a.input = .ok octets ∧
      after.locate a.outputPath =
        .ok (l, .file (Utf8.encode (convertText s (Utf8.decodeLossy octets)).1)) ∧
      ∀ m, m ≠ l → after.find? m = d.find? m := by
  cases h with
  | @written s octets after hs hr hf h =>
    obtain ⟨l, rfl, -, located⟩ := Disk.exists_set_of_write h
    exact ⟨s, octets, l, hs, hr, located, fun m hm => Disk.find?_set_of_ne d hm _⟩

variable (usual a d)

/-- The exit code of a run tells how it ended, and what it left behind. -/
structure ExitCodeTells (o : Outcome) : Prop where
  settings : o.exitCode = 4 ↔ ¬ Configured usual a d
  input : o.exitCode = 1 ↔ Configured usual a d ∧ ¬ Readable a d
  strict : o.exitCode = 3 ↔ Configured usual a d ∧ Readable a d ∧ Refused usual a d
  output : o.exitCode = 2 ↔
    Configured usual a d ∧ Readable a d ∧ ¬ Refused usual a d ∧ ¬ Writable a d
  well : o.exitCode = 0 ↔
    Configured usual a d ∧ Readable a d ∧ ¬ Refused usual a d ∧ Writable a d
  /-- The program of the document, for the settings that were found, is at the output that the
  arguments name, or else at the input's path with an ending, and nothing else has changed. -/
  written : o.exitCode = 0 →
    ∃ s octets l, Settings.Found d a.settings usual s ∧ d.read a.input = .ok octets ∧
      o.disk.locate (a.output.getD (a.input.append "-gcode.nc")) =
        .ok (l, .file (Utf8.encode (convertText s (Utf8.decodeLossy octets)).1)) ∧
      ∀ m, m ≠ l → o.disk.find? m = d.find? m
  unchanged : o.exitCode ≠ 0 → o.disk = d

/-- **The exit code tells how a run ended.** Settings that cannot be had count before a drill file
that cannot be read, this before a document that is refused, and this before a path that cannot be
written to. A run that ends well has written its program and changed nothing else; any other run has
changed nothing. The settings are those that were found, for a settings file that is there is never
passed over. -/
theorem exitCode_run :
    ExitCodeTells usual a d (run buildDate usual a d) ∧
      ∀ s, Settings.resolve a.settings usual d = .ok s ↔ Settings.Found d a.settings usual s := by
  have ending := ending_run buildDate usual a d
  obtain ⟨settings, input, strict, output, well⟩ := ending.code_iff
  refine ⟨⟨settings, input, strict, output, well, fun zero => ?_, ending.eq_of_ne_zero⟩,
    fun s => Settings.resolve_eq_ok_iff⟩
  rw [zero] at ending
  exact ending.exists_of_zero

end DrillPost.Console
