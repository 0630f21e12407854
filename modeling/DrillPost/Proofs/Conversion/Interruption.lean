import DrillPost.Proofs.Conversion.Files
import DrillPost.Proofs.Text.Closed

/-!
# Streams that fail

A stream is read octet by octet. A line feed completes a line, which is converted at once; an end
converts an unfinished line too, while a fault drops it. So a stream that fails has been converted
as far as its last line feed, as if it had ended there, and what stood behind has no part in it.

* `Reader`, `Reader.next`, `Reader.finish`: the reader of a stream, octet by octet;
* `Reader.read_eq`: what it holds behind some octets (`Reader.lineNumber_read`: it counts lines as
  the conversion does);
* `Reader.finish_read`: the conversion of a stream is what its reader comes to;
* `StopsCleanly`: how a stream that fails compares to its complete lines
  (`stopsCleanly_convertStream`).
-/

namespace DrillPost.Conversion

/-! ## The reader -/

/-- What is held between two octets of a stream. -/
structure Reader where
  /-- What has come of the complete lines. -/
  converted : Result := ⟨{}, [], []⟩
  /-- The number of these lines, which the reader counts on its own. -/
  lineNumber : Nat := 0
  /-- The octets behind them. -/
  unfinished : List UInt8 := []

namespace Reader

variable (d : Drilling)

/-- The octets that were collected are converted as a line. -/
def convertLine (r : Reader) : Reader :=
  let last :=
    step d r.converted.progress (Utf8.decodeLossy (Stream.withoutLineEnd r.unfinished))
  { converted :=
      ⟨last.progress, r.converted.program ++ last.program, r.converted.events ++ last.events⟩
    lineNumber := r.lineNumber + 1 }

/-- One more octet has been read. -/
def next (r : Reader) (octet : UInt8) : Reader :=
  let r := { r with unfinished := r.unfinished ++ [octet] }
  if octet == 0x0A then r.convertLine d else r

/-- Some octets have been read. -/
def read (octets : List UInt8) : Reader := octets.foldl (next d) {}

/-- What has come of all lines, one that lacks its line feed among them. -/
def close (r : Reader) : Result :=
  if r.unfinished.isEmpty then r.converted else (r.convertLine d).converted

/-- The stream has ended or failed. An unfinished line counts only at an end. -/
def finish (s : Settings) (path : Path) (r : Reader) : Option FileFault → Outcome
  | none =>
    let all := r.close s.drilling
    ⟨all.events, .ok (all.text s.output {}, all.progress.summary)⟩
  | some fault =>
    ⟨r.converted.events, .error (.inputRead path r.lineNumber fault)⟩

theorem read_concat (octets : List UInt8) (octet : UInt8) :
    read d (octets ++ [octet]) = (read d octets).next d octet := by
  simp [read]

/-- A line behind converted ones is converted behind them. -/
theorem convertLine_run (ls : List Text) (unfinished : List UInt8) :
    convertLine d ⟨run d {} ls, ls.length, unfinished⟩ =
      ⟨run d {} (ls ++ [Utf8.decodeLossy (Stream.withoutLineEnd unfinished)]), ls.length + 1,
        []⟩ := by
  simp only [convertLine, run_append, run_singleton]

/-- A line feed completes a line. -/
theorem linesOf_closedPart_concat (octets : List UInt8) (octet : UInt8) :
    Stream.linesOf (closedPart 0x0A (octets ++ [octet])) =
      Stream.linesOf (closedPart 0x0A octets) ++
        if octet == 0x0A then
          [Utf8.decodeLossy (Stream.withoutLineEnd (openPart 0x0A octets ++ [octet]))]
        else [] := by
  simp only [Stream.linesOf]
  rw [pieces_closedPart_concat, List.map_append]
  split <;> rfl

/-- **What is held behind some octets**: the conversion of the lines up to the last line feed, their
number, and the octets behind it. -/
theorem read_eq (octets : List UInt8) :
    read d octets =
      ⟨run d {} (Stream.linesOf (closedPart 0x0A octets)),
        (Stream.linesOf (closedPart 0x0A octets)).length, openPart 0x0A octets⟩ := by
  induction octets using List.reverseRecOn with
  | nil => rfl
  | append_singleton octets octet ih =>
    rw [read_concat, ih, linesOf_closedPart_concat, openPart_concat, next]
    split
    · rw [convertLine_run, List.length_append, List.length_singleton]
    · rw [List.append_nil]

/-- The reader counts the lines that the conversion counts. -/
theorem lineNumber_read (octets : List UInt8) :
    (read d octets).lineNumber = (read d octets).converted.progress.tally.linesRead := by
  rw [read_eq, linesRead_run]
  exact (Nat.zero_add _).symm

/-- An unfinished line is the last line of its stream. -/
theorem linesOf_eq_append (octets : List UInt8) :
    Stream.linesOf octets =
      Stream.linesOf (closedPart 0x0A octets) ++ Stream.linesOf (openPart 0x0A octets) := by
  simp only [Stream.linesOf]
  rw [← List.map_append, ← pieces_append (closed_closedPart 0x0A octets),
    closedPart_append_openPart]

/-- **What comes of all lines**, whether or not the last one is finished. -/
theorem close_read (octets : List UInt8) :
    (read d octets).close d = run d {} (Stream.linesOf octets) := by
  rw [linesOf_eq_append octets, read_eq, close]
  by_cases nothing : openPart 0x0A octets = []
  · rw [nothing]
    exact congrArg (run d {}) (List.append_nil _).symm
  · have last : Stream.linesOf (openPart 0x0A octets) =
        [Utf8.decodeLossy (Stream.withoutLineEnd (openPart 0x0A octets))] := by
      rw [Stream.linesOf, pieces_of_notMem (notMem_openPart 0x0A octets) nothing]
      rfl
    rw [if_neg (by simpa using nothing), convertLine_run, last]

/-- **The conversion of a stream** is what its reader comes to. -/
theorem finish_read (s : Settings) (path : Path) (stream : Stream) :
    (read s.drilling stream.octets).finish s path stream.fault = convertStream s path stream := by
  obtain ⟨octets, - | fault⟩ := stream
  · simp only [finish, close_read]
    rfl
  · rw [finish, lineNumber_read, read_eq]
    rfl

end Reader

/-! ## The complete lines -/

variable (s : Settings) (path : Path) (octets : List UInt8) (fault : FileFault)

theorem length_linesOf_closedPart :
    (Stream.linesOf (closedPart 0x0A octets)).length = octets.count 0x0A := by
  rw [Stream.linesOf, List.length_map, length_pieces_closedPart]

/-- A stream that fails is converted like its complete lines, but for the fault at its end. -/
theorem convertStream_fault :
    convertStream s path ⟨octets, some fault⟩ =
      ⟨(convertStream s path { octets := closedPart 0x0A octets }).events,
        .error (.inputRead path (octets.count 0x0A) fault)⟩ := by
  rw [← length_linesOf_closedPart, ← Nat.zero_add (List.length _)]
  rw [← linesRead_run s.drilling {}]
  rfl

/-- How the conversion of a stream that fails behind some octets compares to that of its complete
lines. -/
structure StopsCleanly (complete : List UInt8) : Prop where
  /-- These are the octets up to the last line feed. -/
  split : ∃ unfinished, octets = complete ++ unfinished ∧ 0x0A ∉ unfinished ∧
    (complete = [] ∨ complete.getLast? = some 0x0A)
  /-- The fault is told with the number of line feeds. -/
  result : (convertStream s path ⟨octets, some fault⟩).result =
    .error (.inputRead path (octets.count 0x0A) fault)
  /-- A stream that ends behind its complete lines is converted; a listener hears the same, and as
  many lines are read as there are line feeds. -/
  success : ∃ program summary,
    convertStream s path { octets := complete } =
        ⟨(convertStream s path ⟨octets, some fault⟩).events, .ok (program, summary)⟩ ∧
      summary.linesRead = octets.count 0x0A
  /-- Before the first line feed nothing is heard. -/
  silent : 0x0A ∉ octets → (convertStream s path ⟨octets, some fault⟩).events = []
  /-- Other octets behind the last line feed make no difference. -/
  unread : ∀ other, 0x0A ∉ other →
    convertStream s path ⟨complete ++ other, some fault⟩ =
      convertStream s path ⟨octets, some fault⟩

/-- **A stream that fails stops behind its last complete line.** Whatever octets it gives before it
fails, and whatever the fault is, the conversion ends with this fault and the number of complete
lines. By then a listener has heard what it hears of the stream that ends behind these lines, and
the octets of an unfinished line have no part in it. This is what a reader comes to that takes the
octets one by one. -/
theorem stopsCleanly_convertStream :
    StopsCleanly s path octets fault (closedPart 0x0A octets) ∧
      convertStream s path ⟨octets, some fault⟩ =
        (Reader.read s.drilling octets).finish s path (some fault) := by
  have stopped := convertStream_fault s path octets fault
  have complete := closed_closedPart 0x0A octets
  refine ⟨⟨?_, congrArg Outcome.result stopped, ?_, ?_, ?_⟩,
    (Reader.finish_read s path ⟨octets, some fault⟩).symm⟩
  · exact ⟨openPart 0x0A octets, (closedPart_append_openPart 0x0A octets).symm,
      notMem_openPart 0x0A octets, complete⟩
  · rw [stopped]
    refine ⟨_, _, rfl, ?_⟩
    rw [← length_linesOf_closedPart]
    exact (linesRead_run s.drilling {} _).trans (Nat.zero_add _)
  · intro none
    rw [stopped, ← List.nil_append octets, closedPart_append_of_notMem none]
    rfl
  · intro other none
    have same : closedPart 0x0A (closedPart 0x0A octets ++ other) = closedPart 0x0A octets := by
      rw [closedPart_append_of_notMem none, closedPart_of_closed complete]
    have count : (closedPart 0x0A octets ++ other).count 0x0A = octets.count 0x0A := by
      rw [← length_linesOf_closedPart, same, length_linesOf_closedPart]
    rw [convertStream_fault, same, count, stopped]

end DrillPost.Conversion
