import DrillPost.Proofs.Conversion.Files
import DrillPost.Proofs.Conversion.Warnings

/-!
# Strict conversions

A strict conversion refuses a drill file with malformed numbers, and is no different otherwise. It
converts the same lines into the same program, and looks at the malformed numbers among them before
it writes anything. Codes that are unknown do not count.

* `Settings.withStrict`: the same settings, strict or not;
* `malformedLines`: the number of lines with a malformed number
  (`malformedCount_convertLines`);
* `RefusesOnly`: how a strict conversion compares to one that is not;
* `convertFile_withStrict`: the comparison for the conversion of a file.
-/

namespace DrillPost

/-- The same settings, strict or not. -/
def Settings.withStrict (s : Settings) (strict : Bool) : Settings :=
  { s with output := { s.output with strict } }

namespace Conversion

open Excellon

/-! ## Malformed numbers -/

/-- The number of lines with a malformed number. -/
def malformedLines (ls : List Text) : Nat :=
  (eachLine actionAt [] ls).count (.reject .malformedNumber)

theorem malformedCount_next (t : Tally) (line : Text) (a : Action) :
    (t.next line a).malformedCount =
      t.malformedCount + if a = .reject .malformedNumber then 1 else 0 := by
  cases a with
  | reject anomaly => cases anomaly <;> simp [Tally.malformedCount, Tally.next]
  | _ => rfl

/-- Each line with a malformed number counts once, and no other line does. -/
theorem malformedCount_convertLines (s : Settings) (ls : List Text) :
    (convertLines s ls).progress.tally.malformedCount = malformedLines ls := by
  induction ls using List.reverseRecOn with
  | nil => rfl
  | append_singleton ls line ih =>
    rw [convertLines_concat, malformedLines, eachLine_concat, List.count_append,
      List.count_singleton, ← malformedLines, ← ih, malformedCount_next]
    simp only [beq_iff_eq]

theorem malformedLines_pos_iff (ls : List Text) :
    0 < malformedLines ls ↔
      ∃ before line after, ls = before ++ line :: after ∧ MalformedAt before line := by
  rw [← malformedCount_convertLines {} ls, malformedCount_pos_iff]

/-! ## The comparison -/

variable (s : Settings) (input output : Path) (d : Disk)

/-- A fault in opening or reading the drill file. -/
inductive OfInput : Fault → Prop
  | opening (path : Path) (fault : FileFault) : OfInput (.inputOpen path fault)
  | reading (path : Path) (lineNumber : Nat) (fault : FileFault) :
      OfInput (.inputRead path lineNumber fault)

/-- How a strict conversion compares to a lenient one, when this came of opening the drill file. -/
structure RefusesOnly (opened : Except FileFault Stream) (lenient strict : FileOutcome) : Prop where
  /-- Neither gets further with a drill file that cannot be opened or read to its end. -/
  unread : (∀ octets, opened ≠ .ok { octets }) →
    strict = lenient ∧ ∃ fault, lenient.result = .error fault ∧ OfInput fault
  /-- The lenient one converts any other drill file, and fails at most in writing the program. -/
  read : ∀ octets, opened = .ok { octets } → ∀ fault, lenient.result = .error fault →
    ∃ reason, fault = .outputWrite output reason
  /-- Without malformed numbers the strict one does the same. -/
  clean : ∀ octets, opened = .ok { octets } →
    (convertText s (Utf8.decodeLossy octets)).2.malformedCount = 0 → strict = lenient
  /-- With malformed numbers it counts them and writes nothing, whether or not the program could
  have been written. -/
  refused : ∀ octets, opened = .ok { octets } →
    let malformed := (convertText s (Utf8.decodeLossy octets)).2.malformedCount
    0 < malformed → strict = ⟨d, lenient.events, .error (.strictViolation malformed)⟩
  /-- What is counted are the lines with a malformed number. -/
  counted : ∀ octets, opened = .ok { octets } →
    (convertText s (Utf8.decodeLossy octets)).2.malformedCount =
      malformedLines (Text.lines (Utf8.decodeLossy octets))

/-- The conversion of a drill file whose reading fails. -/
theorem convertOpened_fault (octets : List UInt8) (fault : FileFault) (strict : Bool) :
    convertOpened (s.withStrict strict) input output d (.ok ⟨octets, some fault⟩) =
      let stream : Stream := ⟨octets, some fault⟩
      ⟨d, (convertLines s stream.lines).events,
        .error (.inputRead input stream.lines.length fault)⟩ := by
  simp only [convertOpened, result_convertStream_of_fault]
  rfl

/-- The lenient conversion of a drill file that can be read to its end. -/
theorem convertOpened_lenient (octets : List UInt8) :
    convertOpened (s.withStrict false) input output d (.ok { octets }) =
      let document := Utf8.decodeLossy octets
      let events := (convertLines s (Text.lines document)).events
      match d.write output (Utf8.encode (convertText s document).1) with
      | .error fault => ⟨d, events, .error (.outputWrite output fault)⟩
      | .ok written => ⟨written, events, .ok (convertText s document).2⟩ := by
  simp only [convertOpened, convertStream_of_octets]
  rfl

/-- The strict conversion of such a file looks at the malformed numbers first. -/
theorem convertOpened_strict (octets : List UInt8) :
    convertOpened (s.withStrict true) input output d (.ok { octets }) =
      let document := Utf8.decodeLossy octets
      let malformed := (convertText s document).2.malformedCount
      if 0 < malformed then
        ⟨d, (convertLines s (Text.lines document)).events, .error (.strictViolation malformed)⟩
      else convertOpened (s.withStrict false) input output d (.ok { octets }) := by
  rw [convertOpened_lenient]
  simp only [convertOpened, convertStream_of_octets, Settings.withStrict, Bool.true_and,
    decide_eq_true_eq]
  rfl

theorem refusesOnly_convertOpened (opened : Except FileFault Stream) :
    RefusesOnly s output d opened (convertOpened (s.withStrict false) input output d opened)
      (convertOpened (s.withStrict true) input output d opened) := by
  rcases opened with fault | ⟨octets, - | fault⟩
  · refine ⟨fun _ => ⟨rfl, _, rfl, .opening ..⟩, ?_, ?_, ?_, ?_⟩ <;> rintro octets ⟨⟩
  · refine ⟨fun h => absurd rfl (h octets), ?_, ?_, ?_, ?_⟩ <;> rintro _ ⟨⟩
    · intro fault h
      rw [convertOpened_lenient] at h
      dsimp only at h
      split at h
      · cases h
        exact ⟨_, rfl⟩
      · cases h
    · intro clean
      rw [convertOpened_strict]
      simp only [clean, lt_irrefl, if_false]
    · intro malformed positive
      rw [convertOpened_strict, convertOpened_lenient]
      dsimp only
      rw [if_pos positive]
      split <;> rfl
    · exact malformedCount_convertLines s _
  · have stopped := convertOpened_fault s input output d octets fault
    refine ⟨fun _ => ⟨(stopped true).trans (stopped false).symm, _,
      congrArg FileOutcome.result (stopped false), .reading ..⟩, ?_, ?_, ?_, ?_⟩ <;>
      rintro _ ⟨⟩

/-- **A strict conversion only refuses.** Where the drill file cannot be opened or read to its end,
or has no malformed numbers, it ends as a lenient one does, with the same fault or the same summary
and the same files; where there are malformed numbers, it reports how many and leaves the disk as it
was. Lines with unknown codes never count. -/
theorem convertFile_withStrict :
    RefusesOnly s output d (openStream d input)
        (convertFile (s.withStrict false) input output d)
        (convertFile (s.withStrict true) input output d) ∧
      (∀ opened, RefusesOnly s output d opened
        (convertOpened (s.withStrict false) input output d opened)
        (convertOpened (s.withStrict true) input output d opened)) ∧
      ∀ ls, 0 < malformedLines ls ↔
        ∃ before line after, ls = before ++ line :: after ∧ MalformedAt before line :=
  ⟨refusesOnly_convertOpened .., refusesOnly_convertOpened s input output d,
    malformedLines_pos_iff⟩

end Conversion

end DrillPost
