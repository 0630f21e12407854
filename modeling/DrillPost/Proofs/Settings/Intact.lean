import DrillPost.Proofs.Files.Trees
import DrillPost.Proofs.Settings.Store

/-!
# A failed save leaves files alone

Settings are checked, their format is chosen, the directories of the file are made, and the file is
written. The first of these steps that fails decides the fault. Until the last one nothing but
directories is new, so a save that fails leaves all files as they were, an older settings file among
them; and until the third one nothing is new at all. The last two fail for a file in place of one of
the directories, and for a path that is that of a directory.

* `Settings.SaveEnding`: the ways in which a save can end (`ending_save`);
* `Settings.FaultTells`: what its fault tells, and what it leaves behind (`faultTells_save`).
-/

namespace DrillPost.Settings

open Disk (Grown)

variable (s : Settings) (p : Path) (d : Disk)

/-! ## The ways in which a save can end -/

/-- How a save ends: the disk that it leaves behind, and the fault, if there is one. -/
inductive SaveEnding : Disk → Option SettingsFault → Prop
  | inadmissible {v : Violation} (h : s.FirstViolation v) :
      SaveEnding d (some (.ofViolation v))
  | unsupported (hs : s.Admissible) (h : Format.ofPath p = none) :
      SaveEnding d (some (.ofFormat p))
  /-- A directory is missing and cannot be made. Those above it may be new. -/
  | unreachable {format : Format} {fault : FileFault} (hs : s.Admissible)
      (hf : Format.ofPath p = some format) (h : ¬ d.Reachable p) :
      SaveEnding (d.makeParents p).1 (some (.files fault))
  /-- The directories are there, but the path is not one of a file. -/
  | unwritable {format : Format} {fault : FileFault} (hs : s.Admissible)
      (hf : Format.ofPath p = some format) (hr : d.Reachable p) (h : ¬ d.Open p) :
      SaveEnding (d.makeParents p).1 (some (.ofSaving p fault))
  | written {format : Format} {after : Disk} (hs : s.Admissible)
      (hf : Format.ofPath p = some format) (hp : d.Open p)
      (h : (d.makeParents p).1.write p (Utf8.encode (format.write s)) = .ok after) :
      SaveEnding after none

/-- **Every save ends in one of these ways.** -/
theorem ending_save : SaveEnding s p d (s.save p d).1 (s.save p d).2 := by
  rcases admissible_or_firstViolation s with admissible | ⟨v, first⟩
  · have checked := check_eq_ok_iff.2 admissible
    cases hf : Format.ofPath p with
    | none =>
      simp only [save, checked, hf]
      exact .unsupported admissible hf
    | some format =>
      cases hm : d.makeParents p with
      | mk made result =>
        have same : (d.makeParents p).1 = made := by rw [hm]
        cases result with
        | some fault =>
          simp only [save, checked, hf, hm]
          rw [← same]
          refine .unreachable admissible hf fun reachable => ?_
          obtain ⟨other, ended⟩ := Disk.exists_makeParents_iff.2 reachable
          cases hm.symm.trans ended
        | none =>
          have reachable : d.Reachable p := Disk.exists_makeParents_iff.1 ⟨made, hm⟩
          cases hw : made.write p (Utf8.encode (format.write s)) with
          | error fault =>
            simp only [save, checked, hf, hm, hw]
            rw [← same]
            refine .unwritable admissible hf reachable fun openPath => ?_
            obtain ⟨other, after, ended, written⟩ :=
              openPath.exists_write (Utf8.encode (format.write s))
            cases hm.symm.trans ended
            cases hw.symm.trans written
          | ok after =>
            simp only [save, checked, hf, hm, hw]
            rw [← same] at hw
            exact .written admissible hf
              (Disk.exists_write_makeParents_iff.1 ⟨_, after, hm, same ▸ hw⟩) hw
  · rw [save_of_firstViolation first]
    exact .inadmissible first

variable {s p d} {after : Disk} {fault : Option SettingsFault}

/-- The fault of a save tells how far it got. -/
theorem SaveEnding.fault_iff (h : SaveEnding s p d after fault) :
    ((∃ key reason, fault = some (.invalid key reason)) ↔ ¬ s.Admissible) ∧
      ((∃ detail, fault = some (.unsupported detail)) ↔
        s.Admissible ∧ Format.ofPath p = none) ∧
      ((∃ cause, fault = some (.files cause)) ↔
        s.Admissible ∧ Format.ofPath p ≠ none ∧ ¬ d.Reachable p) ∧
      ((∃ detail, fault = some (.save detail)) ↔
        s.Admissible ∧ Format.ofPath p ≠ none ∧ d.Reachable p ∧ ¬ d.Open p) ∧
      (fault = none ↔ s.Admissible ∧ Format.ofPath p ≠ none ∧ d.Open p) := by
  cases h with
  | inadmissible h => simp [SettingsFault.ofViolation, h.not_admissible]
  | unsupported hs h => simp [SettingsFault.ofFormat, hs, h]
  | unreachable hs hf h =>
    have closed : ¬ d.Open p := fun openPath => h openPath.reachable
    simp [hs, hf, h, closed]
  | unwritable hs hf hr h => simp [SettingsFault.ofSaving, hs, hf, hr, h]
  | written hs hf hp h => simp [hs, hf, hp, hp.reachable]

/-- Nothing has changed where settings or path are at fault. -/
theorem SaveEnding.eq_of_refused (h : SaveEnding s p d after fault)
    (hr : ¬ s.Admissible ∨ Format.ofPath p = none) : after = d := by
  cases h with
  | inadmissible h => rfl
  | unsupported hs h => rfl
  | unreachable hs hf => simp [hs, hf] at hr
  | unwritable hs hf => simp [hs, hf] at hr
  | written hs hf => simp [hs, hf] at hr

/-- With a fault, nothing but directories is new. -/
theorem SaveEnding.grown (h : SaveEnding s p d after fault) (failed : fault ≠ none) :
    d.Grown after := by
  cases h with
  | inadmissible h => exact .refl d
  | unsupported hs h => exact .refl d
  | unreachable => exact Disk.grown_makeParents d p
  | unwritable => exact Disk.grown_makeParents d p
  | written => exact absurd rfl failed

/-- Without one, there is one more file: the document of the settings. -/
theorem SaveEnding.exists_written (h : SaveEnding s p d after none) :
    ∃ format l, Format.ofPath p = some format ∧
      after.locate p = .ok (l, .file (Utf8.encode (format.write s))) ∧
      ∀ m, m ≠ l → ∀ octets,
        after.find? m = some (.file octets) ↔ d.find? m = some (.file octets) := by
  cases h with
  | @written format after hs hf hp h =>
    obtain ⟨l, rfl, -, located⟩ := Disk.exists_set_of_write h
    refine ⟨format, l, hf, located, fun m hm octets => ?_⟩
    rw [Disk.find?_set_of_ne _ hm]
    exact (Disk.grown_makeParents d p).find?_file_iff m octets

/-- A tree stays a tree in any case. -/
theorem SaveEnding.isTree (h : SaveEnding s p d after fault) (tree : d.IsTree) : after.IsTree := by
  cases h with
  | inadmissible h => exact tree
  | unsupported hs h => exact tree
  | unreachable => exact tree.makeParents p
  | unwritable => exact tree.makeParents p
  | written hs hf hp h => exact (tree.makeParents p).write h

/-! ## What is left behind -/

variable (s p d)

/-- What the fault of a save tells, and what the save leaves behind. -/
structure FaultTells (after : Disk) (fault : Option SettingsFault) : Prop where
  invalid : (∃ key reason, fault = some (.invalid key reason)) ↔ ¬ s.Admissible
  unsupported : (∃ detail, fault = some (.unsupported detail)) ↔
    s.Admissible ∧ Format.ofPath p = none
  directory : (∃ cause, fault = some (.files cause)) ↔
    s.Admissible ∧ Format.ofPath p ≠ none ∧ ¬ d.Reachable p
  file : (∃ detail, fault = some (.save detail)) ↔
    s.Admissible ∧ Format.ofPath p ≠ none ∧ d.Reachable p ∧ ¬ d.Open p
  saved : fault = none ↔ s.Admissible ∧ Format.ofPath p ≠ none ∧ d.Open p
  /-- On a tree, directories cannot be made where a file is in place of one of them. -/
  blocked : d.IsTree → ((∃ cause, fault = some (.files cause)) ↔
    s.Admissible ∧ Format.ofPath p ≠ none ∧ d.Blocked p)
  /-- And the file cannot be written where its path is that of a directory. -/
  taken : d.IsTree → ((∃ detail, fault = some (.save detail)) ↔
    s.Admissible ∧ Format.ofPath p ≠ none ∧ ¬ d.Blocked p ∧ d.OfDirectory p)
  /-- Settings or a path that are refused leave the disk as it was, directories included. -/
  refused : (∃ key reason, fault = some (.invalid key reason)) ∨
    (∃ detail, fault = some (.unsupported detail)) → after = d
  /-- A save that fails has made, changed and removed no file. -/
  failed : fault ≠ none → ∀ l octets,
    after.find? l = some (.file octets) ↔ d.find? l = some (.file octets)
  /-- An older settings file is intact then. -/
  intact : fault ≠ none → ∀ octets, d.read p = .ok octets → after.read p = .ok octets
  tree : d.IsTree → after.IsTree
  /-- The document of the settings is where the path leads, and no other file has changed. -/
  written : fault = none → ∃ format l, Format.ofPath p = some format ∧
    after.locate p = .ok (l, .file (Utf8.encode (format.write s))) ∧
    ∀ m, m ≠ l → ∀ octets,
      after.find? m = some (.file octets) ↔ d.find? m = some (.file octets)

/-- **A save that fails leaves files alone.** Settings that are not admissible count before a path
whose name says no format, this before directories that cannot be made, and this before a path that
is not one of a file. A save that ends well has written the settings and no other file; any other
save has written none, and in the first two cases it has made no directory either. -/
theorem faultTells_save : FaultTells s p d (s.save p d).1 (s.save p d).2 := by
  have ending := ending_save s p d
  obtain ⟨invalid, unsupported, directory, file, saved⟩ := ending.fault_iff
  refine
    { invalid, unsupported, directory, file, saved
      blocked := fun tree => by rw [directory, tree.reachable_iff, not_not]
      taken := fun tree => by
        rw [file, tree.reachable_iff, tree.open_iff, not_and, not_not]
        exact and_congr_right' (and_congr_right' (and_congr_right fun free => imp_iff_right free))
      refused := fun h => ending.eq_of_refused (h.imp invalid.1 fun h => (unsupported.1 h).2)
      failed := fun failed => (ending.grown failed).find?_file_iff
      intact := fun failed octets => (ending.grown failed).read
      tree := ending.isTree
      written := fun none => ?_ }
  rw [none] at ending
  exact ending.exists_written

/-- A directory that is new although the save fails, because a file is in place of the next one. -/
example :
    let d : Disk := { entries := [(["old"], .file [])] }
    let ending := save {} ⟨"new/../old/c.toml"⟩ d
    ending.1.entries = [(["new"], .directory), (["old"], .file [])] ∧
      ending.2 = some (.files .alreadyExists) := by
  decide +kernel

end DrillPost.Settings
