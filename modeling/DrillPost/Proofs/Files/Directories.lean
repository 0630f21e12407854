import DrillPost.Proofs.Files.Disk

/-!
# Directories that are made on the way

The directory of a file is made together with those above it, from the last one that is missing
back to the first that is there. What this comes to is a walk from the start: each step leads to a
directory, or to a name that is not there and becomes one.

* `Way`: such a walk, and the disk after it;
* `makeDirectoriesFrom_invariant`: what is kept when directories are made;
* `makeDirectoriesFrom_eq_iff`: the directories are made exactly when there is a walk;
* `Reachable`: the paths whose directories can be made (`exists_makeParents_iff`);
* `Open`: the paths of files that can be written once their directories are made
  (`exists_write_makeParents_iff`).
-/

namespace DrillPost.Disk

/-! ## Ways -/

/-- A row of steps, given from the last to the first, can be walked when directories are made where
they are missing: the location that it leads to, and the disk with these directories. -/
inductive Way (d : Disk) (start : Location) : List Step → Location → Disk → Prop
  | here (h : d.find? start = some .directory) : Way d start [] start d
  /-- A step to a directory. -/
  | walked {s : Step} {above : List Step} {l : Location} {made : Disk}
      (h : Way d start above l made) (hs : made.find? (stepFrom l s) = some .directory) :
      Way d start (s :: above) (stepFrom l s) made
  /-- A step to a name that is missing. -/
  | made {name : String} {above : List Step} {l : Location} {made : Disk}
      (h : Way d start above l made) (hn : made.find? (l ++ [name]) = none) :
      Way d start (.down name :: above) (l ++ [name]) (made.set (l ++ [name]) .directory)

section

variable {d made : Disk} {start l m : Location} {s : Step} {above steps : List Step}

theorem follow_concat_of_directory (h : d.follow start steps = .ok l)
    (hl : d.find? l = some .directory) (s : Step) :
    d.follow start (steps ++ [s]) = .ok (stepFrom l s) := by
  rw [follow_append, h]
  exact follow_cons_of_directory hl s []

/-- A row of steps that fails where it could go on fails in the same way with more steps. -/
theorem follow_concat_eq_error {fault : FileFault}
    (h : d.follow start (steps ++ [.stay]) = .error fault) (s : Step) :
    d.follow start (steps ++ [s] ++ [.stay]) = .error fault := by
  rw [List.append_assoc, follow_append] at *
  cases hf : d.follow start steps with
  | error other =>
    rw [hf] at h
    exact h
  | ok k =>
    rw [hf] at h
    simp only [Except.bind, List.cons_append, List.nil_append, follow] at h ⊢
    cases hk : d.find? k with
    | none => simpa [hk] using h
    | some e =>
      cases e with
      | file octets => simpa [hk] using h
      | directory => simp [hk] at h

/-- From what is no directory no step can be taken, whichever it is. -/
theorem exists_follow_eq_error (h : d.find? start ≠ some .directory) :
    ∃ fault, ∀ steps ≠ [], d.follow start steps = .error fault := by
  have first (fault : FileFault) (stopped : ∀ s rest, d.follow start (s :: rest) = .error fault) :
      ∃ fault, ∀ steps ≠ [], d.follow start steps = .error fault := by
    refine ⟨fault, fun steps some => ?_⟩
    obtain ⟨s, rest, rfl⟩ := List.exists_cons_of_ne_nil some
    exact stopped s rest
  cases hl : d.find? start with
  | none => exact first .notFound fun s rest => by rw [Disk.follow, hl]
  | some e =>
    cases e with
    | file octets => exact first .notDirectory fun s rest => by rw [Disk.follow, hl]
    | directory => exact absurd hl h

namespace Way

/-- A way ends in a directory. -/
theorem directory (h : Way d start above l made) : made.find? l = some .directory := by
  cases h with
  | here h => exact h
  | walked _ hs => exact hs
  | made _ _ => exact find?_set_self _ (by simp) _

/-- On the disk after it, a way is a row of steps. -/
theorem follow (h : Way d start above l made) : made.follow start above.reverse = .ok l := by
  induction h with
  | here h => rfl
  | walked h hs ih =>
    rw [List.reverse_cons]
    exact follow_concat_of_directory ih h.directory _
  | @made name above l made h hn ih =>
    have named := follow_concat_of_directory ih h.directory (.down name)
    rw [List.reverse_cons]
    exact follow_set (by simp [hn]) _ named

theorem follow_stay (h : Way d start above l made) :
    made.follow start (above.reverse ++ [.stay]) = .ok l :=
  follow_concat_of_directory h.follow h.directory .stay

/-- A way that is there, or one of which a directory is missing. No file is in its place. -/
theorem follow_before (h : Way d start above l made) :
    made = d ∧ d.follow start (above.reverse ++ [.stay]) = .ok l ∨
      d.follow start (above.reverse ++ [.stay]) = .error .notFound := by
  induction h with
  | here h => exact .inl ⟨rfl, follow_concat_of_directory rfl h .stay⟩
  | @walked s above l made h hs ih =>
    rcases ih with ⟨rfl, -⟩ | missing
    · exact .inl ⟨rfl, (h.walked hs).follow_stay⟩
    · rw [List.reverse_cons]
      exact .inr (follow_concat_eq_error missing s)
  | @made name above l made h hn ih =>
    rw [List.reverse_cons]
    rcases ih with ⟨rfl, -⟩ | missing
    · refine .inr ?_
      rw [follow_append, follow_concat_of_directory h.follow h.directory]
      simp [Except.bind, Disk.follow, stepFrom, hn]
    · exact .inr (follow_concat_eq_error missing _)

/-- A row of steps through directories is a way on which nothing is made. -/
theorem of_follow (h : d.follow start (above.reverse ++ [.stay]) = .ok l) :
    Way d start above l d := by
  induction above generalizing l with
  | nil =>
    obtain ⟨hl, directory⟩ := follow_concat_stay h
    cases hl
    exact .here directory
  | cons s above ih =>
    obtain ⟨hl, directory⟩ := follow_concat_stay h
    rw [List.reverse_cons] at hl
    obtain ⟨k, hk, above, rfl⟩ := exists_of_follow_concat hl
    exact (ih (follow_concat_of_directory hk above .stay)).walked directory

end Way

/-! ## Directories -/

theorem site_reverse_cons (d : Disk) (start : Location) (s : Step) (above : List Step) :
    d.site start (s :: above).reverse =
      (d.follow start (above.reverse ++ [.stay])).map fun l => (l, some s) := by
  simp [site]

theorem makeDirectory_of_error {fault : FileFault}
    (h : d.follow start (above.reverse ++ [.stay]) = .error fault) (s : Step) :
    d.makeDirectory start (s :: above).reverse = .error fault := by
  rw [makeDirectory, site_reverse_cons, h]
  rfl

theorem makeDirectory_of_directory (h : d.follow start (above.reverse ++ [.stay]) = .ok l)
    (hs : d.find? (stepFrom l s) = some .directory) :
    d.makeDirectory start (s :: above).reverse = .error .alreadyExists := by
  rw [makeDirectory, site_reverse_cons, h]
  cases s with
  | stay => rfl
  | up => rfl
  | down name =>
    rw [stepFrom] at hs
    simp [Except.map, Except.bind, hs]

theorem makeDirectory_of_missing {name : String}
    (h : d.follow start (above.reverse ++ [.stay]) = .ok l) (hn : d.find? (l ++ [name]) = none) :
    d.makeDirectory start (.down name :: above).reverse =
      .ok (d.set (l ++ [name]) .directory) := by
  rw [makeDirectory, site_reverse_cons, h]
  simp [Except.map, Except.bind, hn]

/-- A directory is made only where a name is missing. -/
theorem exists_of_makeDirectory {after : Disk}
    (h : d.makeDirectory start (s :: above).reverse = .ok after) :
    ∃ l name, s = .down name ∧ d.follow start (above.reverse ++ [.stay]) = .ok l ∧
      d.find? (l ++ [name]) = none ∧ d.set (l ++ [name]) .directory = after := by
  cases hf : d.follow start (above.reverse ++ [.stay]) with
  | error fault =>
    rw [makeDirectory_of_error hf] at h
    cases h
  | ok l =>
    rw [makeDirectory, site_reverse_cons, hf] at h
    cases s with
    | stay => cases h
    | up => cases h
    | down name =>
      cases hn : d.find? (l ++ [name]) with
      | some e => simp [Except.map, Except.bind, hn] at h
      | none =>
        simp only [Except.map, Except.bind, hn, Option.isSome_none, Bool.false_eq_true, if_false,
          Except.ok.injEq] at h
        exact ⟨l, name, rfl, rfl, hn, h⟩

theorem reachesDirectory_iff :
    d.reachesDirectory start steps = true ↔ ∃ l, d.follow start (steps ++ [.stay]) = .ok l := by
  unfold reachesDirectory
  cases d.follow start (steps ++ [.stay]) <;> simp

/-- What is kept whenever a directory is made in another one is kept when those of a row of steps
are made, whether or not this ends well. -/
theorem makeDirectoriesFrom_invariant {motive : Disk → Prop} (first : motive d)
    (next : ∀ (d : Disk) l name, motive d → d.find? l = some .directory →
      d.find? (l ++ [name]) = none → motive (d.set (l ++ [name]) .directory))
    (start : Location) (above : List Step) : motive (d.makeDirectoriesFrom start above).1 := by
  have single {d after : Disk} {s : Step} {above : List Step} (hd : motive d)
      (h : d.makeDirectory start (s :: above).reverse = .ok after) : motive after := by
    obtain ⟨l, name, -, hf, missing, rfl⟩ := exists_of_makeDirectory h
    exact next d l name hd (follow_concat_stay hf).2 missing
  induction above with
  | nil => exact first
  | cons s above ih =>
    rw [makeDirectoriesFrom]
    dsimp only
    split
    · rename_i hm
      exact single first hm
    · split
      · rename_i hr
        rw [hr] at ih
        exact ih
      · rename_i hr
        rw [hr] at ih
        split
        · rename_i hm
          exact single ih hm
        · exact ih
    · exact first

/-- The directories of a way are made. -/
theorem Way.makeDirectoriesFrom (h : Way d start above l made) :
    d.makeDirectoriesFrom start above = (made, none) := by
  induction h with
  | here h => rfl
  | @walked s above l made h hs ih =>
    have there : made.makeDirectory start (s :: above).reverse = .error .alreadyExists :=
      makeDirectory_of_directory h.follow_stay hs
    have reached : made.reachesDirectory start (s :: above).reverse = true :=
      reachesDirectory_iff.2 ⟨_, (h.walked hs).follow_stay⟩
    rw [Disk.makeDirectoriesFrom]
    rcases h.follow_before with ⟨rfl, -⟩ | missing
    · simp only [there, reached, if_true]
    · simp only [makeDirectory_of_error missing, ih, there, reached, if_true]
  | @made name above l made h hn ih =>
    have new := makeDirectory_of_missing h.follow_stay hn
    rw [Disk.makeDirectoriesFrom]
    rcases h.follow_before with ⟨rfl, -⟩ | missing
    · simp only [new]
    · simp only [makeDirectory_of_error missing, ih, new]

/-- A way goes on to a directory that is reached behind it. -/
theorem Way.of_reachesDirectory (h : Way d start above l made)
    (hr : made.reachesDirectory start (s :: above).reverse = true) :
    ∃ m, Way d start (s :: above) m made := by
  obtain ⟨m, hm⟩ := reachesDirectory_iff.1 hr
  obtain ⟨reached, directory⟩ := follow_concat_stay hm
  rw [List.reverse_cons] at reached
  obtain ⟨k, hk, -, rfl⟩ := exists_of_follow_concat reached
  obtain rfl : l = k := Except.ok.inj (h.follow.symm.trans hk)
  exact ⟨_, h.walked directory⟩

/-- **Directories are made** exactly along a way. -/
theorem makeDirectoriesFrom_eq_iff (hd : d.find? start = some .directory) :
    d.makeDirectoriesFrom start above = (made, none) ↔ ∃ l, Way d start above l made := by
  refine ⟨fun h => ?_, fun ⟨l, h⟩ => h.makeDirectoriesFrom⟩
  induction above generalizing made with
  | nil =>
    cases h
    exact ⟨start, .here hd⟩
  | cons s above ih =>
    have settled {d' : Disk} {fault : FileFault}
        (hs : (d', if d'.reachesDirectory start (s :: above).reverse then none else some fault) =
          (made, none)) :
        d' = made ∧ d'.reachesDirectory start (s :: above).reverse = true := by
      obtain ⟨same, none⟩ := Prod.mk.inj hs
      refine ⟨same, ?_⟩
      by_contra missing
      rw [if_neg missing] at none
      cases none
    rw [makeDirectoriesFrom] at h
    dsimp only at h
    split at h
    · rename_i after hm
      obtain ⟨l, name, rfl, hf, hn, rfl⟩ := exists_of_makeDirectory hm
      cases h
      exact ⟨_, (Way.of_follow hf).made hn⟩
    · split at h
      · cases h
      · rename_i d' hr
        obtain ⟨l, way⟩ := ih hr
        split at h
        · rename_i after hm
          obtain ⟨k, name, rfl, hf, hn, rfl⟩ := exists_of_makeDirectory hm
          obtain rfl : l = k := Except.ok.inj (way.follow_stay.symm.trans hf)
          cases h
          exact ⟨_, way.made hn⟩
        · obtain ⟨rfl, reached⟩ := settled h
          exact way.of_reachesDirectory reached
    · obtain ⟨rfl, reached⟩ := settled h
      obtain ⟨l, hl⟩ := reachesDirectory_iff.1 reached
      exact ⟨l, .of_follow hl⟩

/-- **Nothing is made** from what is no directory. -/
theorem exists_makeDirectoriesFrom_eq (h : d.find? start ≠ some .directory) (s : Step)
    (above : List Step) : ∃ fault, d.makeDirectoriesFrom start (s :: above) = (d, some fault) := by
  obtain ⟨fault, stopped⟩ := exists_follow_eq_error h
  have failed (s : Step) (above : List Step) :
      d.makeDirectory start (s :: above).reverse = .error fault :=
    makeDirectory_of_error (stopped _ (by simp)) s
  have unreached (s : Step) (above : List Step) :
      d.reachesDirectory start (s :: above).reverse = false := by
    rw [reachesDirectory, stopped _ (by simp)]
  induction above generalizing s with
  | nil =>
    refine ⟨fault, ?_⟩
    cases fault <;> simp only [makeDirectoriesFrom, failed, unreached, Bool.false_eq_true, if_false]
  | cons t above ih =>
    obtain ⟨other, ended⟩ := ih t
    rw [makeDirectoriesFrom]
    simp only [failed, unreached, Bool.false_eq_true, if_false, ended]
    cases fault <;> exact ⟨_, rfl⟩

end

/-! ## Files -/

section

variable {d made after : Disk} {p : Path} {octets : List UInt8}

/-- A path that a file can be written to once its directories are made: it ends in a name, there is
a way to the directory of this name, and it is no directory itself. -/
structure Open (d : Disk) (p : Path) : Prop where
  way : ∃ l name made, p.steps.getLast? = some (.down name) ∧
    d.Way (d.base p) p.components.dropLast.reverse l made ∧
      made.find? (l ++ [name]) ≠ some .directory
  slash : p.endsInSlash = false

/-- Steps that stay in place change nothing. -/
theorem follow_filter_stay (d : Disk) (l : Location) (steps : List Step) :
    d.follow l (steps.filter (· != .stay) ++ [.stay]) = d.follow l (steps ++ [.stay]) := by
  induction steps generalizing l with
  | nil => rfl
  | cons s steps ih =>
    by_cases hl : d.find? l = some .directory
    · by_cases stay : s = .stay
      · subst stay
        rw [List.cons_append, follow_cons_of_directory hl]
        exact ih l
      · rw [List.filter_cons_of_pos (by simpa using stay), List.cons_append, List.cons_append,
          follow_cons_of_directory hl, follow_cons_of_directory hl, ih]
    · obtain ⟨fault, stopped⟩ := exists_follow_eq_error hl
      rw [stopped _ (by simp), stopped _ (by simp)]

theorem dropLast_components {name : String} (h : p.steps.getLast? = some (.down name)) :
    p.components.dropLast = p.steps.dropLast.filter (· != .stay) := by
  rw [Path.components]
  conv_lhs => rw [← List.dropLast_append_getLast? _ h]
  rw [List.filter_append]
  exact List.dropLast_concat

theorem Way.base_eq {start l : Location} {above : List Step} (h : d.Way start above l made)
    (p : Path) : made.base p = d.base p := by
  have same : made.workingDirectory = d.workingDirectory := by
    induction h with
    | here h => rfl
    | walked h hs ih => exact ih
    | made h hn ih => exact ih
  rw [base, base, same]

/-- The site of a file at the end of a way. -/
theorem Way.site {l : Location} {name : String} (h : p.steps.getLast? = some (.down name))
    (way : d.Way (d.base p) p.components.dropLast.reverse l made) :
    made.site (made.base p) p.steps = .ok (l, some (.down name)) := by
  have reached := way.follow_stay
  rw [List.reverse_reverse, dropLast_components h, follow_filter_stay] at reached
  rw [Disk.site, way.base_eq p, reached, h]
  rfl

theorem text_of_getLast? {s : Step} (h : p.steps.getLast? = some s) : p.text.isEmpty = false := by
  by_contra empty
  have : p.text = "" := by simpa using empty
  simp [Path.steps, this] at h

theorem Open.exists_write (h : d.Open p) (octets : List UInt8) :
    ∃ made after, d.makeParents p = (made, none) ∧ made.write p octets = .ok after := by
  obtain ⟨⟨l, name, made, last, way, free⟩, slash⟩ := h
  refine ⟨made, made.set (l ++ [name]) (.file octets), way.makeDirectoriesFrom, ?_⟩
  have text := text_of_getLast? last
  simp [write, text, way.site last, Except.bind, slash, free]

/-- A path whose directories can be made, if there are any in front of its last name. -/
def Reachable (d : Disk) (p : Path) : Prop :=
  p.components.dropLast = [] ∨ ∃ l made, d.Way (d.base p) p.components.dropLast.reverse l made

theorem Open.reachable (h : d.Open p) : d.Reachable p := by
  obtain ⟨⟨l, name, made, -, way, -⟩, -⟩ := h
  exact .inr ⟨l, made, way⟩

/-- **Paths whose directories are made.** -/
theorem exists_makeParents_iff : (∃ made, d.makeParents p = (made, none)) ↔ d.Reachable p := by
  unfold makeParents Reachable
  rw [← List.reverse_eq_nil_iff]
  cases hs : p.components.dropLast.reverse with
  | nil => exact iff_of_true ⟨d, rfl⟩ (.inl rfl)
  | cons s above =>
    by_cases hd : d.find? (d.base p) = some .directory
    · simp only [makeDirectoriesFrom_eq_iff hd, List.cons_ne_nil, false_or]
      exact exists_comm
    · obtain ⟨fault, failed⟩ := exists_makeDirectoriesFrom_eq hd s above
      refine iff_of_false ?_ ?_
      · rintro ⟨made, ended⟩
        cases failed.symm.trans ended
      · rintro (none | ⟨l, made, way⟩)
        · cases none
        · cases failed.symm.trans way.makeDirectoriesFrom

/-- **Files that can be written** once their directories are made, whatever is written. -/
theorem exists_write_makeParents_iff :
    (∃ made after, d.makeParents p = (made, none) ∧ made.write p octets = .ok after) ↔
      d.Open p := by
  refine ⟨fun ⟨made, after, hm, hw⟩ => ?_, fun h => h.exists_write octets⟩
  rcases write_cases made p octets with ⟨-, he⟩ | ⟨fault, -, he⟩ | ⟨k, last, -, -, he⟩ |
    ⟨-, k, name, site, ⟨-, he⟩ | ⟨slash, free, -⟩⟩
  all_goals try (rw [he] at hw; cases hw)
  obtain ⟨reached, directory, last⟩ := site_eq_ok site
  obtain ⟨l, way⟩ : ∃ l, d.Way (d.base p) p.components.dropLast.reverse l made := by
    rcases exists_makeParents_iff.1 ⟨made, hm⟩ with none | ⟨l, other, way⟩
    · -- nothing was made, so the steps in front of the name lead through what was there
      obtain rfl : d = made := by
        rw [makeParents, none] at hm
        exact (Prod.mk.inj hm).1
      refine ⟨k, .of_follow ?_⟩
      rw [List.reverse_reverse, dropLast_components last, follow_filter_stay]
      exact follow_concat_of_directory reached directory .stay
    · cases hm.symm.trans way.makeDirectoriesFrom
      exact ⟨l, way⟩
  have same := (way.site last).symm.trans site
  obtain rfl : l = k := (Prod.mk.inj (Except.ok.inj same)).1
  exact ⟨⟨l, name, made, last, way, free⟩, slash⟩

end

end DrillPost.Disk
