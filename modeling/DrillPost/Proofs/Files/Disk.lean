import DrillPost.Files.Disk
import DrillPost.Proofs.Text.Separation
import Mathlib

/-!
# Writing to a disk

What is written to a path is found there, and nothing else changes. A path that nothing can be
written to is that of a directory, or it lies below something that is missing or no directory.

* `follow_append`, `follow_set`: rows of steps, on a disk and after an entry has been replaced;
* `locate_eq_ok_iff`, `read_eq_ok_iff`: what a path leads to;
* `exists_set_of_write`: what writing does;
* `Unwritable`, `unwritable_of_write`: why nothing is written;
* `exists_write_eq_ok_iff`: the paths that can be written to.
-/

namespace DrillPost.Disk

/-! ## Rows of steps -/

section

variable {d : Disk} {l m : Location}

theorem follow_append (d : Disk) (l : Location) (steps more : List Step) :
    d.follow l (steps ++ more) = (d.follow l steps).bind fun m => d.follow m more := by
  induction steps generalizing l with
  | nil => rfl
  | cons s steps ih =>
    rw [List.cons_append, follow, follow]
    cases d.find? l with
    | none => rfl
    | some e =>
      cases e with
      | file octets => rfl
      | directory => exact ih _

theorem follow_cons_of_directory (h : d.find? l = some .directory) (s : Step) (steps : List Step) :
    d.follow l (s :: steps) = d.follow (stepFrom l s) steps := by
  rw [follow, h]

/-- The last step of a row is taken from a directory. -/
theorem exists_of_follow_concat {s : Step} {steps : List Step}
    (h : d.follow l (steps ++ [s]) = .ok m) :
    ∃ k, d.follow l steps = .ok k ∧ d.find? k = some .directory ∧ stepFrom k s = m := by
  rw [follow_append] at h
  cases hf : d.follow l steps with
  | error fault =>
    rw [hf] at h
    cases h
  | ok k =>
    simp only [hf, Except.bind, follow] at h
    cases hk : d.find? k with
    | none => simp [hk] at h
    | some e =>
      cases e with
      | file octets => simp [hk] at h
      | directory =>
        simp only [hk, Except.ok.injEq] at h
        exact ⟨k, rfl, hk, h⟩

/-- A row of steps that ends where it could go on leads to a directory. -/
theorem follow_concat_stay {steps : List Step} (h : d.follow l (steps ++ [.stay]) = .ok m) :
    d.follow l steps = .ok m ∧ d.find? m = some .directory := by
  obtain ⟨k, hk, directory, rfl⟩ := exists_of_follow_concat h
  exact ⟨hk, directory⟩

/-- The way to a location does not lead through an entry that is no directory, and so stays as it is
when this entry is replaced. -/
theorem follow_set {k : Location} (hk : d.find? k ≠ some .directory) (e : Entry)
    {steps : List Step} (h : d.follow l steps = .ok m) : (d.set k e).follow l steps = .ok m := by
  induction steps generalizing l with
  | nil => exact h
  | cons s steps ih =>
    cases hl : d.find? l with
    | none => simp [follow, hl] at h
    | some x =>
      cases x with
      | file octets => simp [follow, hl] at h
      | directory =>
        have hne : l ≠ k := by
          rintro rfl
          exact hk hl
        rw [follow_cons_of_directory hl] at h
        rw [follow_cons_of_directory ((find?_set_of_ne d hne e).trans hl)]
        exact ih h

/-- A row of steps fails at the first location that is not a directory. -/
theorem exists_of_follow_eq_error {fault : FileFault} {steps : List Step}
    (h : d.follow l steps = .error fault) :
    ∃ front s rest k, steps = front ++ s :: rest ∧ d.follow l front = .ok k ∧
      (d.find? k = none ∧ fault = .notFound ∨
        (∃ octets, d.find? k = some (.file octets)) ∧ fault = .notDirectory) := by
  induction steps generalizing l with
  | nil => cases h
  | cons s steps ih =>
    cases hl : d.find? l with
    | none =>
      simp only [follow, hl, Except.error.injEq] at h
      exact ⟨[], s, steps, l, rfl, rfl, .inl ⟨hl, h.symm⟩⟩
    | some e =>
      cases e with
      | file octets =>
        simp only [follow, hl, Except.error.injEq] at h
        exact ⟨[], s, steps, l, rfl, rfl, .inr ⟨⟨octets, hl⟩, h.symm⟩⟩
      | directory =>
        rw [follow_cons_of_directory hl] at h
        obtain ⟨front, t, rest, k, rfl, hf, hk⟩ := ih h
        exact ⟨s :: front, t, rest, k, rfl, (follow_cons_of_directory hl s front).trans hf, hk⟩

/-- A row of steps that leads to a directory leads through directories only. -/
theorem find?_of_follow_append {k : Location} {front rest : List Step}
    (h : d.follow l (front ++ rest) = .ok m) (hm : d.find? m = some .directory)
    (hk : d.follow l front = .ok k) : d.find? k = some .directory := by
  rw [follow_append, hk] at h
  cases rest with
  | nil =>
    obtain rfl : k = m := Except.ok.inj h
    exact hm
  | cons s rest =>
    cases hf : d.find? k with
    | none => simp [Except.bind, follow, hf] at h
    | some e =>
      cases e with
      | file octets => simp [Except.bind, follow, hf] at h
      | directory => rfl

/-- The place where an entry would be made is in a directory. -/
theorem site_eq_ok {start : Location} {steps : List Step} {last : Option Step}
    (h : d.site start steps = .ok (l, last)) :
    d.follow start steps.dropLast = .ok l ∧ d.find? l = some .directory ∧
      steps.getLast? = last := by
  unfold site at h
  cases hf : d.follow start (steps.dropLast ++ [.stay]) with
  | error fault =>
    rw [hf] at h
    cases h
  | ok k =>
    rw [hf] at h
    obtain ⟨rfl, rfl⟩ := Prod.mk.inj (Except.ok.inj h)
    obtain ⟨hk, directory⟩ := follow_concat_stay hf
    exact ⟨hk, directory, rfl⟩

/-- The way to a named entry of a directory. -/
theorem follow_of_site {start : Location} {steps : List Step} {name : String}
    (h : d.site start steps = .ok (l, some (.down name))) :
    d.follow start steps = .ok (l ++ [name]) := by
  obtain ⟨hf, directory, last⟩ := site_eq_ok h
  rw [← List.dropLast_append_getLast? _ last, follow_append, hf]
  exact follow_cons_of_directory directory _ _

end

/-! ## What is written -/

section

variable {d after : Disk} {p : Path} {octets : List UInt8}

/-- **What a path leads to.** -/
theorem locate_eq_ok_iff {l : Location} {e : Entry} :
    d.locate p = .ok (l, e) ↔ p.text.isEmpty = false ∧ d.follow (d.base p) p.steps = .ok l ∧
      d.find? l = some e ∧ (e = .directory ∨ p.endsInSlash = false) := by
  unfold locate
  by_cases text : p.text.isEmpty = true
  · simp [text]
  rw [if_neg text]
  have named : p.text.isEmpty = false := by simpa using text
  cases hf : d.follow (d.base p) p.steps with
  | error fault => simp [Except.bind]
  | ok k =>
    simp only [Except.bind, named, true_and, Except.ok.injEq]
    cases hk : d.find? k with
    | none =>
      refine iff_of_false nofun ?_
      rintro ⟨rfl, found, -⟩
      cases hk.symm.trans found
    | some x =>
      cases x with
      | directory => grind
      | file octets => grind

/-- The octets of a file that can be read. -/
theorem read_eq_ok_iff : d.read p = .ok octets ↔ ∃ l, d.locate p = .ok (l, .file octets) := by
  unfold read
  rcases d.locate p with fault | ⟨l, content | -⟩ <;> simp [Except.bind]

/-- The ways in which writing can end. -/
theorem write_cases (d : Disk) (p : Path) (octets : List UInt8) :
    p.text.isEmpty = true ∧ d.write p octets = .error .notFound ∨
      (∃ fault, d.site (d.base p) p.steps = .error fault ∧ d.write p octets = .error fault) ∨
      (∃ l last, d.site (d.base p) p.steps = .ok (l, last) ∧ (∀ name, last ≠ some (.down name)) ∧
        d.write p octets = .error .isDirectory) ∨
      p.text.isEmpty = false ∧ ∃ l name, d.site (d.base p) p.steps = .ok (l, some (.down name)) ∧
        ((p.endsInSlash = true ∨ d.find? (l ++ [name]) = some .directory) ∧
            d.write p octets = .error .isDirectory ∨
          p.endsInSlash = false ∧ d.find? (l ++ [name]) ≠ some .directory ∧
            d.write p octets = .ok (d.set (l ++ [name]) (.file octets))) := by
  by_cases text : p.text.isEmpty = true
  · exact .inl ⟨text, by rw [write, if_pos text]⟩
  rw [write, if_neg text]
  refine .inr ?_
  cases hs : d.site (d.base p) p.steps with
  | error fault => exact .inl ⟨fault, rfl, rfl⟩
  | ok found =>
    obtain ⟨l, last⟩ := found
    refine .inr ?_
    by_cases named : ∃ name, last = some (.down name)
    · obtain ⟨name, rfl⟩ := named
      refine .inr ⟨by simpa using text, l, name, rfl, ?_⟩
      simp only [Except.bind]
      split
      · rename_i taken
        exact .inl ⟨by simpa using taken, rfl⟩
      · rename_i free
        simp only [Bool.or_eq_true, beq_iff_eq, not_or, Bool.not_eq_true] at free
        exact .inr ⟨free.1, free.2, rfl⟩
    · refine .inl ⟨l, last, rfl, fun name hn => named ⟨name, hn⟩, ?_⟩
      simp only [Except.bind]
      split
      · rename_i name heq
        exact absurd ⟨name, (Prod.mk.inj heq).2⟩ named
      · rfl

/-- **What writing does**: the entry at one location is replaced, which was no directory, and the
path leads to this location now. -/
theorem exists_set_of_write (h : d.write p octets = .ok after) :
    ∃ l, after = d.set l (.file octets) ∧ d.find? l ≠ some .directory ∧
      after.locate p = .ok (l, .file octets) := by
  rcases write_cases d p octets with ⟨-, hw⟩ | ⟨fault, -, hw⟩ | ⟨l, last, -, -, hw⟩ |
    ⟨text, l, name, site, ⟨-, hw⟩ | ⟨slash, free, hw⟩⟩
  all_goals rw [hw] at h; cases h
  refine ⟨l ++ [name], rfl, free, ?_⟩
  have way : (d.set (l ++ [name]) (.file octets)).follow (d.base p) p.steps = .ok (l ++ [name]) :=
    follow_set free _ (follow_of_site site)
  have found : (d.set (l ++ [name]) (.file octets)).find? (l ++ [name]) = some (.file octets) :=
    find?_set_self d (by simp) _
  exact locate_eq_ok_iff.2 ⟨text, way, found, .inr slash⟩

/-- Why nothing can be written to a path. -/
inductive Unwritable (d : Disk) (p : Path) : FileFault → Prop
  /-- There is no path. -/
  | empty (h : p.text.isEmpty = true) : Unwritable d p .notFound
  /-- A directory on the way is missing. -/
  | missing {front rest : List Step} {l : Location} (h : p.steps.dropLast = front ++ rest)
      (hf : d.follow (d.base p) front = .ok l) (hl : d.find? l = none) : Unwritable d p .notFound
  /-- A file is in place of a directory on the way. -/
  | blocked {front rest : List Step} {l : Location} {octets : List UInt8}
      (h : p.steps.dropLast = front ++ rest) (hf : d.follow (d.base p) front = .ok l)
      (hl : d.find? l = some (.file octets)) : Unwritable d p .notDirectory
  /-- The path is written as that of a directory. -/
  | written (h : p.endsInSlash = true ∨ ∀ name, p.steps.getLast? ≠ some (.down name)) :
      Unwritable d p .isDirectory
  /-- The path leads to a directory. -/
  | directory {l : Location} (h : d.locate p = .ok (l, .directory)) : Unwritable d p .isDirectory

theorem unwritable_of_site {fault : FileFault} (h : d.site (d.base p) p.steps = .error fault) :
    d.Unwritable p fault := by
  have hf : d.follow (d.base p) (p.steps.dropLast ++ [.stay]) = .error fault := by
    unfold site at h
    cases hs : d.follow (d.base p) (p.steps.dropLast ++ [.stay]) with
    | error other =>
      rw [hs] at h
      exact congrArg Except.error (Except.error.inj h)
    | ok l =>
      rw [hs] at h
      cases h
  obtain ⟨front, s, rest, k, hsteps, hk, hfault⟩ := exists_of_follow_eq_error hf
  have inside : ∃ more, p.steps.dropLast = front ++ more := by
    rcases concat_eq_append_cons_iff.1 hsteps with ⟨hf, -, -⟩ | ⟨init, -, hf⟩
    · exact ⟨[], by simpa using hf⟩
    · exact ⟨_, hf⟩
  obtain ⟨more, hmore⟩ := inside
  rcases hfault with ⟨missing, rfl⟩ | ⟨⟨content, blocked⟩, rfl⟩
  · exact .missing hmore hk missing
  · exact .blocked hmore hk blocked

/-- **Why nothing is written.** -/
theorem unwritable_of_write {fault : FileFault} (h : d.write p octets = .error fault) :
    d.Unwritable p fault := by
  rcases write_cases d p octets with ⟨text, hw⟩ | ⟨fault, site, hw⟩ | ⟨l, last, site, unnamed, hw⟩ |
    ⟨text, l, name, site, ⟨taken, hw⟩ | ⟨-, -, hw⟩⟩
  all_goals rw [hw] at h; cases h
  · exact .empty text
  · exact unwritable_of_site site
  · exact .written (.inr fun name hn => unnamed name ((site_eq_ok site).2.2.symm.trans hn))
  · by_cases slash : p.endsInSlash = true
    · exact .written (.inl slash)
    · exact .directory (locate_eq_ok_iff.2
        ⟨text, follow_of_site site, taken.resolve_left slash, .inl rfl⟩)

/-- A path that something is written to is not one of those that nothing can be written to. -/
theorem not_unwritable_of_write (h : d.write p octets = .ok after) (fault : FileFault) :
    ¬ d.Unwritable p fault := by
  rcases write_cases d p octets with ⟨-, hw⟩ | ⟨_, -, hw⟩ | ⟨_, _, -, -, hw⟩ |
    ⟨text, l, name, site, ⟨-, hw⟩ | ⟨slash, free, hw⟩⟩
  all_goals rw [hw] at h; cases h
  obtain ⟨way, directory, last⟩ := site_eq_ok site
  intro unwritable
  cases unwritable with
  | empty empty => simp [text] at empty
  | missing split hf missing =>
    rw [split] at way
    simp [find?_of_follow_append way directory hf] at missing
  | blocked split hf blocked =>
    rw [split] at way
    simp [find?_of_follow_append way directory hf] at blocked
  | written written =>
    rcases written with written | unnamed
    · simp [slash] at written
    · exact unnamed name last
  | directory located =>
    obtain ⟨-, follow, found, -⟩ := locate_eq_ok_iff.1 located
    cases (follow_of_site site).symm.trans follow
    exact free found

/-- **A path can be written to** exactly when there is no reason against it, whatever is written. -/
theorem exists_write_eq_ok_iff :
    (∃ after, d.write p octets = .ok after) ↔ ∀ fault, ¬ d.Unwritable p fault := by
  constructor
  · rintro ⟨after, h⟩
    exact not_unwritable_of_write h
  · intro h
    cases hw : d.write p octets with
    | error fault => exact absurd (unwritable_of_write hw) (h fault)
    | ok after => exact ⟨after, rfl⟩
end

end DrillPost.Disk
