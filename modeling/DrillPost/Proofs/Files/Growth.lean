import DrillPost.Proofs.Files.Directories

/-!
# Disks that grow

Making directories removes nothing and writes to no file: all that is new are directories where
there was nothing. So rows of steps lead where they led before, and files hold what they held. This
is so also when a directory cannot be made and those above it have been.

* `Grown`: a disk with more directories (`Grown.find?_file_iff`, `Grown.follow`, `Grown.read`);
* `grown_makeParents`: what making directories comes to, whether or not it ends well.
-/

namespace DrillPost.Disk

/-- The second disk is the first one with more directories. -/
structure Grown (d after : Disk) : Prop where
  entry : ∀ l, after.find? l = d.find? l ∨ d.find? l = none ∧ after.find? l = some .directory
  workingDirectory : after.workingDirectory = d.workingDirectory

variable {d made after : Disk} {start l m : Location} {steps : List Step} {p : Path}

/-! ## What stays -/

namespace Grown

theorem refl (d : Disk) : d.Grown d := ⟨fun _ => .inl rfl, rfl⟩

theorem trans (h : d.Grown made) (h' : made.Grown after) : d.Grown after where
  entry l := by
    rcases h'.entry l with same | ⟨missing, new⟩
    · rw [same]
      exact h.entry l
    · rcases h.entry l with before | ⟨-, there⟩
      · exact .inr ⟨before ▸ missing, new⟩
      · cases missing.symm.trans there
  workingDirectory := h'.workingDirectory.trans h.workingDirectory

/-- A directory where there was nothing. -/
theorem set_directory (hn : d.find? l = none) : d.Grown (d.set l .directory) where
  entry m := by
    by_cases same : m = l
    · subst same
      -- the root is always there
      have named : m ≠ [] := by
        rintro rfl
        cases hn
      exact .inr ⟨hn, find?_set_self d named _⟩
    · exact .inl (find?_set_of_ne d same _)
  workingDirectory := rfl

/-- What is there stays. -/
theorem find?_eq (h : d.Grown after) {e : Entry} (he : d.find? l = some e) :
    after.find? l = some e := by
  rcases h.entry l with same | ⟨missing, -⟩
  · exact same.trans he
  · cases missing.symm.trans he

/-- **Files are the same**, and hold the same octets. -/
theorem find?_file_iff (h : d.Grown after) (l : Location) (octets : List UInt8) :
    after.find? l = some (.file octets) ↔ d.find? l = some (.file octets) := by
  refine ⟨fun file => ?_, h.find?_eq⟩
  rcases h.entry l with same | ⟨-, directory⟩
  · exact same.symm.trans file
  · cases directory.symm.trans file

theorem base_eq (h : d.Grown after) (p : Path) : after.base p = d.base p := by
  rw [base, base, h.workingDirectory]

/-- Rows of steps lead where they led. -/
theorem follow (h : d.Grown after) (hf : d.follow l steps = .ok m) :
    after.follow l steps = .ok m := by
  induction steps generalizing l with
  | nil => exact hf
  | cons s steps ih =>
    cases hl : d.find? l with
    | none => simp [Disk.follow, hl] at hf
    | some e =>
      cases e with
      | file octets => simp [Disk.follow, hl] at hf
      | directory =>
        rw [follow_cons_of_directory hl] at hf
        rw [follow_cons_of_directory (h.find?_eq hl)]
        exact ih hf

theorem locate (h : d.Grown after) {e : Entry} (hp : d.locate p = .ok (l, e)) :
    after.locate p = .ok (l, e) := by
  rw [locate_eq_ok_iff] at hp ⊢
  obtain ⟨text, way, found, slash⟩ := hp
  exact ⟨text, h.base_eq p ▸ h.follow way, h.find?_eq found, slash⟩

/-- **A file that can be read holds what it held.** -/
theorem read (h : d.Grown after) {octets : List UInt8} (hr : d.read p = .ok octets) :
    after.read p = .ok octets := by
  obtain ⟨l, located⟩ := read_eq_ok_iff.1 hr
  exact read_eq_ok_iff.2 ⟨l, h.locate located⟩

end Grown

/-! ## Making directories -/

theorem grown_makeDirectoriesFrom (d : Disk) (start : Location) (above : List Step) :
    d.Grown (d.makeDirectoriesFrom start above).1 :=
  makeDirectoriesFrom_invariant (.refl d)
    (fun _ _ _ grown _ missing => grown.trans (.set_directory missing)) start above

theorem Way.grown {above : List Step} (h : d.Way start above l made) : d.Grown made := by
  have grown := grown_makeDirectoriesFrom d start above
  rwa [h.makeDirectoriesFrom] at grown

/-- **Making the directories of a path** adds directories, as far as it gets. -/
theorem grown_makeParents (d : Disk) (p : Path) : d.Grown (d.makeParents p).1 :=
  grown_makeDirectoriesFrom ..

end DrillPost.Disk
