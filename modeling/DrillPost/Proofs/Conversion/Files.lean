import DrillPost.Conversion.File
import DrillPost.Proofs.Conversion.Joined
import DrillPost.Proofs.Conversion.Streams
import DrillPost.Proofs.Files.Disk

/-!
# Converted files

The conversion of a file either writes the whole program of the document that the file holds, and
changes nothing else, or leaves the disk as it was and says why. This holds also when the file
cannot be read to its end.

* `openStream_eq_ok_iff`: the files that can be read to their end;
* `Cause`: why there is no program;
* `AllOrNothing`: what is left behind;
* `convertOpened_cases`: the ways in which a conversion can end;
* `convertFile_allOrNothing`: what the conversion of a file leaves behind.
-/

namespace DrillPost.Conversion

variable (s : Settings) (input output : Path) (d : Disk)

/-- The octets that a drill file gives before it ends are those that the disk holds. -/
theorem openStream_eq_ok_iff {octets : List UInt8} :
    openStream d input = .ok { octets } ↔ d.read input = .ok octets := by
  unfold openStream Disk.read
  rcases d.locate input with fault | ⟨l, content | -⟩ <;> simp [Except.map, Except.bind]

/-- A stream that fails gives no program, but the number of lines before the fault. -/
theorem result_convertStream_of_fault (octets : List UInt8) (fault : FileFault) :
    (convertStream s input ⟨octets, some fault⟩).result =
      .error (.inputRead input (Stream.lines ⟨octets, some fault⟩).length fault) := by
  simp [convertStream, convertLines, linesRead_run]

section

variable (opened : Except FileFault Stream)

/-- Why a conversion ends without a program, when this came of opening the drill file. -/
inductive Cause : Fault → Prop
  /-- The drill file cannot be opened. -/
  | inputOpen {fault : FileFault} (h : opened = .error fault) : Cause (.inputOpen input fault)
  /-- Reading fails behind some lines. -/
  | inputRead {octets : List UInt8} {fault : FileFault} (h : opened = .ok ⟨octets, some fault⟩) :
      Cause (.inputRead input (Stream.lines ⟨octets, some fault⟩).length fault)
  /-- Some lines have malformed numbers, and none may. -/
  | strictViolation {octets : List UInt8} (h : opened = .ok { octets })
      (hs : s.output.strict = true)
      (hm : 0 < (convertText s (Utf8.decodeLossy octets)).2.malformedCount) :
      Cause (.strictViolation (convertText s (Utf8.decodeLossy octets)).2.malformedCount)
  /-- Nothing can be written to the path of the program. -/
  | outputWrite {octets : List UInt8} {fault : FileFault} (h : opened = .ok { octets })
      (hm : s.output.strict = true →
        (convertText s (Utf8.decodeLossy octets)).2.malformedCount = 0)
      (hw : d.Unwritable output fault) : Cause (.outputWrite output fault)

/-- What a conversion leaves behind, when this came of opening the drill file: the program and
nothing else, or nothing. -/
structure AllOrNothing (outcome : FileOutcome) : Prop where
  /-- The program of the whole document is where the path of the program leads, the summary is that
  of this document, and nothing else has changed. -/
  all : ∀ summary, outcome.result = .ok summary →
    ∃ octets l, opened = .ok { octets } ∧
      let document := Utf8.decodeLossy octets
      summary = (convertText s document).2 ∧
        (s.output.strict = true → summary.malformedCount = 0) ∧
        outcome.disk.locate output = .ok (l, .file (Utf8.encode (convertText s document).1)) ∧
        ∀ m, m ≠ l → outcome.disk.find? m = d.find? m
  /-- The disk is as it was, and the fault says why. -/
  nothing : ∀ fault, outcome.result = .error fault →
    outcome.disk = d ∧ Cause s input output d opened fault

/-- A conversion ends without a program, for a cause, or the program is written. -/
theorem convertOpened_cases :
    (∃ fault, Cause s input output d opened fault ∧
      (convertOpened s input output d opened).result = .error fault ∧
      (convertOpened s input output d opened).disk = d) ∨
    ∃ octets, opened = .ok { octets } ∧
      (s.output.strict = true →
        (convertText s (Utf8.decodeLossy octets)).2.malformedCount = 0) ∧
      (convertOpened s input output d opened).result =
        .ok (convertText s (Utf8.decodeLossy octets)).2 ∧
      d.write output (Utf8.encode (convertText s (Utf8.decodeLossy octets)).1) =
        .ok (convertOpened s input output d opened).disk := by
  rcases opened with fault | ⟨octets, - | fault⟩
  · exact .inl ⟨_, .inputOpen rfl, rfl, rfl⟩
  · -- The stream ends: what remains are the strict check and the writing.
    have converted := convertStream_of_octets s input octets
    by_cases hm : s.output.strict = true ∧
        0 < (convertText s (Utf8.decodeLossy octets)).2.malformedCount
    · refine .inl ⟨_, .strictViolation rfl hm.1 hm.2, ?_⟩
      simp [convertOpened, converted, hm]
    have clean : s.output.strict = true →
        (convertText s (Utf8.decodeLossy octets)).2.malformedCount = 0 :=
      fun strict => Nat.eq_zero_of_not_pos fun positive => hm ⟨strict, positive⟩
    cases hw : d.write output (Utf8.encode (convertText s (Utf8.decodeLossy octets)).1) with
    | error fault =>
      refine .inl ⟨_, .outputWrite rfl clean (Disk.unwritable_of_write hw), ?_⟩
      simp [convertOpened, converted, hm, hw]
    | ok written =>
      refine .inr ⟨octets, rfl, clean, ?_⟩
      simp [convertOpened, converted, hm, hw]
  · refine .inl ⟨_, .inputRead rfl, ?_⟩
    simp [convertOpened, result_convertStream_of_fault]

theorem allOrNothing_convertOpened :
    AllOrNothing s input output d opened (convertOpened s input output d opened) := by
  rcases convertOpened_cases s input output d opened with
    ⟨fault, cause, result, same⟩ | ⟨octets, ho, clean, result, written⟩
  · refine ⟨fun summary h => ?_, fun other h => ?_⟩
    · cases result.symm.trans h
    · cases result.symm.trans h
      exact ⟨same, cause⟩
  · refine ⟨fun summary h => ?_, fun fault h => ?_⟩
    · cases result.symm.trans h
      obtain ⟨l, after, -, located⟩ := Disk.exists_set_of_write written
      refine ⟨octets, l, ho, rfl, clean, located, fun m hm => ?_⟩
      exact (congrArg (Disk.find? · m) after).trans (Disk.find?_set_of_ne d hm _)
    · cases result.symm.trans h

end

/-- **All or nothing.** A conversion that ends well has written the program of the document that the
drill file held, whether or not the program takes the place of this file, and changed nothing else.
A conversion that fails leaves the disk as it was, for a cause that the fault names. The same holds
when the reading of the drill file fails at some octet. -/
theorem convertFile_allOrNothing :
    AllOrNothing s input output d (openStream d input) (convertFile s input output d) ∧
      (∀ octets, openStream d input = .ok { octets } ↔ d.read input = .ok octets) ∧
      ∀ opened, AllOrNothing s input output d opened (convertOpened s input output d opened) :=
  ⟨allOrNothing_convertOpened .., fun _ => openStream_eq_ok_iff ..,
    allOrNothing_convertOpened s input output d⟩

end DrillPost.Conversion
