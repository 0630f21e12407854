import DrillPost.Proofs.Files.Growth

/-!
# Disks that are trees

On the disk of a machine everything lies in a directory. There, directories can be made unless a
file is in place of one of them, and the file itself can be written then unless its path is that of
a directory, which may be one that has just been made.

* `IsTree`: such a disk (`isTree_empty`), and what keeps it so (`IsTree.write`,
  `IsTree.makeParents`);
* `exists_way_iff`: the rows of steps that can be walked, in terms of where they lead (`leadsTo`);
* `Blocked`, `OfDirectory`: what keeps a file from being written (`IsTree.reachable_iff`,
  `IsTree.open_iff`).
-/

namespace DrillPost.Disk

/-- What is there is in a directory, and the working directory is one. -/
structure IsTree (d : Disk) : Prop where
  above : ∀ {l e}, d.find? l = some e → d.find? l.dropLast = some .directory
  workingDirectory : d.find? d.workingDirectory = some .directory

variable {d made after : Disk} {start l m : Location} {s : Step} {above steps : List Step}
  {p : Path}

/-! ## What stays a tree -/

/-- A disk that holds nothing but its root. -/
theorem isTree_empty : ({} : Disk).IsTree := by
  refine ⟨fun {l e} found => ?_, rfl⟩
  obtain rfl : l = [] := by
    by_contra named
    simp [find?, named] at found
  rfl

namespace IsTree

/-- An entry of a directory can be replaced, unless a directory is lost. -/
theorem set (h : d.IsTree) {name : String} {e : Entry} (hl : d.find? l = some .directory)
    (he : d.find? (l ++ [name]) = some .directory → e = .directory) :
    (d.set (l ++ [name]) e).IsTree := by
  have stays {m : Location} (hm : d.find? m = some .directory) :
      (d.set (l ++ [name]) e).find? m = some .directory := by
    by_cases same : m = l ++ [name]
    · subst same
      rw [find?_set_self d (by simp), he hm]
    · rw [find?_set_of_ne d same, hm]
  refine ⟨fun {m x} hm => stays ?_, stays h.workingDirectory⟩
  by_cases same : m = l ++ [name]
  · rw [same, List.dropLast_concat, hl]
  · rw [find?_set_of_ne d same] at hm
    exact h.above hm

/-- **Writing keeps a tree.** -/
theorem write (h : d.IsTree) {octets : List UInt8} (hw : d.write p octets = .ok after) :
    after.IsTree := by
  rcases write_cases d p octets with ⟨-, ends⟩ | ⟨_, -, ends⟩ | ⟨_, _, -, -, ends⟩ |
    ⟨-, l, name, site, ⟨-, ends⟩ | ⟨-, free, ends⟩⟩
  all_goals rw [ends] at hw; cases hw
  exact h.set (site_eq_ok site).2.1 fun taken => absurd taken free

theorem makeDirectoriesFrom (h : d.IsTree) (start : Location) (above : List Step) :
    (d.makeDirectoriesFrom start above).1.IsTree :=
  makeDirectoriesFrom_invariant h (fun _ _ _ tree directory _ => tree.set directory fun _ => rfl)
    start above

/-- **Making directories keeps a tree**, whether or not it ends well. -/
theorem makeParents (h : d.IsTree) (p : Path) : (d.makeParents p).1.IsTree :=
  h.makeDirectoriesFrom ..

theorem find?_base (h : d.IsTree) (p : Path) : d.find? (d.base p) = some .directory := by
  unfold base
  split
  · rfl
  · exact h.workingDirectory

end IsTree

theorem Way.isTree (h : d.Way start above l made) (tree : d.IsTree) : made.IsTree := by
  have made := tree.makeDirectoriesFrom start above
  rwa [h.makeDirectoriesFrom] at made

/-! ## Where steps lead -/

/-- The location that a row of steps leads to, if it can be walked. -/
def leadsTo (l : Location) (steps : List Step) : Location := steps.foldl stepFrom l

@[simp] theorem leadsTo_concat (l : Location) (steps : List Step) (s : Step) :
    leadsTo l (steps ++ [s]) = stepFrom (leadsTo l steps) s := by
  simp [leadsTo]

theorem Way.leadsTo_eq (h : d.Way start above l made) : leadsTo start above.reverse = l := by
  induction h with
  | here h => rfl
  | walked h hs ih => rw [List.reverse_cons, leadsTo_concat, ih]
  | made h hn ih => rw [List.reverse_cons, leadsTo_concat, ih, stepFrom]

theorem leadsTo_of_way (h : d.Way start steps.reverse l made) : leadsTo start steps = l := by
  have ends := h.leadsTo_eq
  rwa [List.reverse_reverse] at ends

/-- **The directories after a way** are those before it and those that it leads through. -/
theorem Way.find?_eq_directory_iff (h : d.Way start above l made) :
    made.find? m = some .directory ↔ d.find? m = some .directory ∨
      ∃ front, front <+: above.reverse ∧ leadsTo start front = m := by
  have split (steps : List Step) (s : Step) :
      (∃ front, front <+: steps ++ [s] ∧ leadsTo start front = m) ↔
        leadsTo start (steps ++ [s]) = m ∨ ∃ front, front <+: steps ∧ leadsTo start front = m := by
    simp only [List.prefix_concat_iff, or_and_right, exists_or, exists_eq_left]
  induction h with
  | here h =>
    refine ⟨.inl, ?_⟩
    rintro (there | ⟨front, inside, rfl⟩)
    · exact there
    · rw [List.reverse_nil, List.prefix_nil] at inside
      exact inside ▸ h
  | @walked s above l made way hs ih =>
    have reached := (way.walked hs).leadsTo_eq
    rw [List.reverse_cons] at reached ⊢
    rw [split, reached, or_left_comm]
    refine .trans ⟨.inr, ?_⟩ (or_congr_right ih)
    rintro (rfl | there)
    · exact hs
    · exact there
  | @made name above l made way hn ih =>
    have reached := (way.made hn).leadsTo_eq
    rw [List.reverse_cons] at reached ⊢
    rw [split, reached, or_left_comm]
    refine .trans ?_ (or_congr_right ih)
    by_cases same : m = l ++ [name]
    · simp [same, find?_set_self]
    · rw [find?_set_of_ne _ same, or_iff_right (Ne.symm same)]

/-! ## Files on the way -/

/-- A row of steps leads through a file. -/
def Barred (d : Disk) (start : Location) (steps : List Step) : Prop :=
  ∃ front octets, front <+: steps ∧ d.find? (leadsTo start front) = some (.file octets)

theorem barred_concat : d.Barred start (steps ++ [s]) ↔ d.Barred start steps ∨
    ∃ octets, d.find? (leadsTo start (steps ++ [s])) = some (.file octets) := by
  unfold Barred
  constructor
  · rintro ⟨front, octets, inside, file⟩
    rcases List.prefix_concat_iff.1 inside with rfl | inside
    · exact .inr ⟨octets, file⟩
    · exact .inl ⟨front, octets, inside, file⟩
  · rintro (⟨front, octets, inside, file⟩ | ⟨octets, file⟩)
    · exact ⟨front, octets, inside.trans (List.prefix_append ..), file⟩
    · exact ⟨_, octets, List.prefix_rfl, file⟩

/-- **What can be walked on a tree**, when directories are made: all that leads through no file. -/
theorem exists_way_iff (tree : d.IsTree) (hs : d.find? start = some .directory) :
    (∃ l made, d.Way start steps.reverse l made) ↔ ¬ d.Barred start steps := by
  induction steps using List.reverseRecOn with
  | nil =>
    refine iff_of_true ⟨start, d, .here hs⟩ ?_
    rintro ⟨front, octets, inside, file⟩
    rw [List.prefix_nil.1 inside] at file
    cases hs.symm.trans file
  | append_singleton steps s ih =>
    rw [List.reverse_concat, barred_concat, not_or, ← ih]
    constructor
    · rintro ⟨m, after, way⟩
      have ends := way.leadsTo_eq
      rw [List.reverse_cons, List.reverse_reverse] at ends
      refine ⟨?_, fun ⟨octets, file⟩ => ?_⟩
      · cases way with
        | walked way _ => exact ⟨_, _, way⟩
        | made way _ => exact ⟨_, _, way⟩
      · rw [ends] at file
        cases (way.grown.find?_eq file).symm.trans way.directory
    · rintro ⟨⟨l, made, way⟩, free⟩
      rw [leadsTo_concat, leadsTo_of_way way] at free
      cases s with
      | stay => exact ⟨_, _, way.walked way.directory⟩
      | up => exact ⟨_, _, way.walked ((way.isTree tree).above way.directory)⟩
      | down name =>
        cases hn : made.find? (l ++ [name]) with
        | none => exact ⟨_, _, way.made hn⟩
        | some e =>
          cases e with
          | directory => exact ⟨_, _, way.walked hn⟩
          | file octets =>
            exact absurd ⟨octets, (way.grown.find?_file_iff _ octets).1 hn⟩ free

/-! ## Paths -/

/-- A file is in place of one of the directories above a path. -/
def Blocked (d : Disk) (p : Path) : Prop := d.Barred (d.base p) p.components.dropLast

/-- The path is that of a directory, at the latest once those above it have been made. -/
inductive OfDirectory (d : Disk) (p : Path) : Prop
  /-- It is written as that of a directory. -/
  | written (h : p.endsInSlash = true ∨ ∀ name, p.steps.getLast? ≠ some (.down name))
  /-- It leads to one. -/
  | found (h : d.find? (leadsTo (d.base p) p.components) = some .directory)
  /-- It leads back to one of those above it. -/
  | passed {front : List Step} (h : front <+: p.components.dropLast)
      (hf : leadsTo (d.base p) front = leadsTo (d.base p) p.components)

/-- **The directories of a path can be made** unless a file is in their place. -/
theorem IsTree.reachable_iff (tree : d.IsTree) : d.Reachable p ↔ ¬ d.Blocked p := by
  have base := tree.find?_base p
  rw [Blocked, ← exists_way_iff tree base]
  refine ⟨?_, .inr⟩
  rintro (none | way)
  · rw [none]
    exact ⟨_, _, .here base⟩
  · exact way

theorem leadsTo_components {name : String} (h : p.steps.getLast? = some (.down name))
    (l : Location) : leadsTo l p.components = leadsTo l p.components.dropLast ++ [name] := by
  have last : p.components.getLast? = some (.down name) := by
    obtain ⟨front, split⟩ := List.getLast?_eq_some_iff.1 h
    simp [Path.components, split]
  conv_lhs => rw [← List.dropLast_append_getLast? _ last]
  rw [leadsTo_concat, stepFrom]

/-- Whether there is a directory in the place of a file at the end of a way. -/
theorem Way.taken_iff {name : String} (last : p.steps.getLast? = some (.down name))
    (h : d.Way (d.base p) p.components.dropLast.reverse l made) :
    made.find? (l ++ [name]) = some .directory ↔
      d.find? (leadsTo (d.base p) p.components) = some .directory ∨
        ∃ front, front <+: p.components.dropLast ∧
          leadsTo (d.base p) front = leadsTo (d.base p) p.components := by
  rw [h.find?_eq_directory_iff, List.reverse_reverse, leadsTo_components last, leadsTo_of_way h]

/-- **A file can be written** once its directories are made, unless a file is in their place or the
path is that of a directory. -/
theorem IsTree.open_iff (tree : d.IsTree) : d.Open p ↔ ¬ d.Blocked p ∧ ¬ d.OfDirectory p := by
  constructor
  · intro openPath
    refine ⟨tree.reachable_iff.1 openPath.reachable, fun directory => ?_⟩
    obtain ⟨⟨l, name, made, last, way, free⟩, slash⟩ := openPath
    rw [ne_eq, way.taken_iff last] at free
    cases directory with
    | written h =>
      rcases h with slashed | unnamed
      · simp [slash] at slashed
      · exact unnamed name last
    | found h => exact free (.inl h)
    | passed h hf => exact free (.inr ⟨_, h, hf⟩)
  · rintro ⟨free, other⟩
    obtain ⟨l, made, way⟩ := (exists_way_iff tree (tree.find?_base p)).2 free
    have unwritten : ¬ (p.endsInSlash = true ∨ ∀ name, p.steps.getLast? ≠ some (.down name)) :=
      fun h => other (.written h)
    simp only [not_or, Bool.not_eq_true, not_forall, not_not] at unwritten
    obtain ⟨slash, name, last⟩ := unwritten
    refine ⟨⟨l, name, made, last, way, fun taken => other ?_⟩, slash⟩
    rcases (way.taken_iff last).1 taken with found | ⟨front, inside, same⟩
    · exact .found found
    · exact .passed inside same

end DrillPost.Disk
