import DrillPost.Proofs.Conversion.Parts
import DrillPost.Proofs.Conversion.Streams
import DrillPost.Proofs.Text.Trimming

/-!
# Documents that differ in layout

The lines of a document may stand between blanks, and their ends may be line feeds or carriage
returns with line feeds. None of this matters: what is read are the trimmed lines, and the last line
needs no end when anything of it is left. So two documents with the same lines are converted alike,
as texts and as streams of octets.

* `Padded`: a line between blanks;
* `LaidOut`: a document that holds given lines (`LaidOut.map_trim_lines`);
* `convertText_eq_of_laidOut`: documents that hold the same lines.
-/

namespace DrillPost.Conversion

/-- Blanks that end no line. -/
def Padding (t : Text) : Prop := ∀ c ∈ t, Text.isBlank c = true ∧ c ≠ '\n'

instance (t : Text) : Decidable (Padding t) := List.decidableBAll _ t

/-- A line between blanks. -/
inductive Padded (line : Text) : Text → Prop
  | intro (front back : Text) (hf : Padding front) (hb : Padding back) :
      Padded line (front ++ line ++ back)

/-- A document that holds given lines, one after the other. Each stands between blanks and ends with
a line feed, in front of which there may be a carriage return. The end of the last line may be
missing when the line or a blank around it is there. -/
inductive LaidOut : List Text → Text → Prop
  | empty : LaidOut [] []
  | unfinished {line text : Text} (h : Padded line text) (hne : text ≠ []) : LaidOut [line] text
  | lineFeed {line text rest : Text} {ls : List Text} (h : Padded line text)
      (hr : LaidOut ls rest) : LaidOut (line :: ls) (text ++ '\n' :: rest)
  | carriageReturn {line text rest : Text} {ls : List Text} (h : Padded line text)
      (hr : LaidOut ls rest) : LaidOut (line :: ls) (text ++ '\r' :: '\n' :: rest)

theorem Padded.trim_eq {line text : Text} (h : Padded line text) :
    Text.trim text = Text.trim line := by
  cases h with
  | intro _ _ hf hb =>
    exact Text.trim_append_append (fun c hc => (hf c hc).1) (fun c hc => (hb c hc).1) line

theorem Padded.lineFeed_notMem {line text : Text} (h : Padded line text) (flat : '\n' ∉ line) :
    '\n' ∉ text := by
  cases h with
  | intro _ _ hf hb =>
    intro hm
    rcases List.mem_append.1 hm with hm | hm
    · rcases List.mem_append.1 hm with hm | hm
      · exact (hf '\n' hm).2 rfl
      · exact flat hm
    · exact (hb '\n' hm).2 rfl

/-- The line in front of the first line feed is the trimmed one, blanks at its ends aside. -/
theorem Padded.map_trim_lines {line text : Text} (h : Padded line text) (flat : '\n' ∉ line)
    (rest : Text) :
    (Text.lines (text ++ '\n' :: rest)).map Text.trim =
      Text.trim line :: (Text.lines rest).map Text.trim := by
  rw [Text.lines_append_cons (h.lineFeed_notMem flat), List.map_cons,
    Text.trim_dropFinal (by decide), h.trim_eq]

/-- A carriage return in front of a line feed is one more blank. -/
theorem Padded.carriageReturn {line text : Text} (h : Padded line text) :
    Padded line (text ++ ['\r']) := by
  cases h with
  | intro front back hf hb =>
    have padding : Padding (back ++ ['\r']) := by
      intro c hc
      rcases List.mem_append.1 hc with hc | hc
      · exact hb c hc
      · rw [List.mem_singleton.1 hc]
        exact ⟨by decide, by decide⟩
    rw [List.append_assoc (front ++ line)]
    exact .intro _ _ hf padding

/-- **The trimmed lines of a document** are those that it was to hold. -/
theorem LaidOut.map_trim_lines {ls : List Text} {t : Text} (h : LaidOut ls t)
    (flat : ∀ line ∈ ls, '\n' ∉ line) : (Text.lines t).map Text.trim = ls.map Text.trim := by
  induction h with
  | empty => rfl
  | @unfinished line text h hne =>
    have whole : '\n' ∉ text := h.lineFeed_notMem (flat line List.mem_cons_self)
    rw [Text.lines_of_notMem whole hne, List.map_cons, h.trim_eq]
    rfl
  | @lineFeed line text rest ls h _ ih =>
    rw [h.map_trim_lines (flat line List.mem_cons_self), List.map_cons,
      ih fun other ho => flat other (List.mem_cons_of_mem line ho)]
  | @carriageReturn line text rest ls h _ ih =>
    rw [List.append_cons text '\r', h.carriageReturn.map_trim_lines (flat line List.mem_cons_self),
      List.map_cons, ih fun other ho => flat other (List.mem_cons_of_mem line ho)]

variable (s : Settings) {ls : List Text} {t u : Text}

/-- Behind any progress, documents with the same trimmed lines add the same. -/
theorem contribution_congr (p : Progress)
    (h : (Text.lines t).map Text.trim = (Text.lines u).map Text.trim) :
    contribution s p t = contribution s p u := by
  rw [contribution, contribution, run_congr s.drilling p h]

/-- **The layout of a document does not matter.** Two documents that hold the same lines, with
whatever blanks around them and whatever line ends, give the same program, the same summary with the
same warnings, and the same events; and so do the octets of these documents as streams, which give
what the documents give. Behind any progress they add the same and lead to the same progress. -/
theorem convertText_eq_of_laidOut (flat : ∀ line ∈ ls, '\n' ∉ line) (ht : LaidOut ls t)
    (hu : LaidOut ls u) (path : Path) :
    let stream (document : Text) := convertStream s path { octets := Utf8.encode document }
    convertText s t = convertText s u ∧
      (convertLines s (Text.lines t)).events = (convertLines s (Text.lines u)).events ∧
      stream t = stream u ∧ (stream t).result = .ok (convertText s t) ∧
      (stream t).events = (convertLines s (Text.lines t)).events ∧
      ∀ p, contribution s p t = contribution s p u := by
  intro stream
  have trimmed : (Text.lines t).map Text.trim = (Text.lines u).map Text.trim :=
    (ht.map_trim_lines flat).trans (hu.map_trim_lines flat).symm
  have same (p : Progress) : contribution s p t = contribution s p u :=
    contribution_congr s p trimmed
  have events := congrArg Contribution.events (same {})
  have texts : convertText s t = convertText s u := by
    rw [convertText_eq_contribution, convertText_eq_contribution, same]
  have converted (document : Text) : stream document =
      { events := (convertLines s (Text.lines document)).events
        result := .ok (convertText s document) } := by
    have back := convertStream_of_octets s path (Utf8.encode document)
    rwa [Utf8.decodeLossy_encode] at back
  refine ⟨texts, events, ?_, ?_, ?_, same⟩
  · rw [converted, converted, texts]
    exact congrArg (Outcome.mk · _) events
  · rw [converted]
  · rw [converted]

/-- One document with line feeds and no end behind its last line, and one with carriage returns and
blanks of several octets. -/
theorem convertText_eq_mixed :
    let ls := ["T1".toList, "G05".toList, "X1Y2".toList]
    let t := "T1\nG05\nX1Y2".toList
    let u := "\u3000T1\r\r\n\x0bG05\n\tX1Y2\u2028\r\n".toList
    (∀ line ∈ ls, '\n' ∉ line) ∧ LaidOut ls t ∧ LaidOut ls u ∧
      convertText {} t = convertText {} u := by
  intro ls t u
  have flat : ∀ line ∈ ls, '\n' ∉ line := by decide
  have bare (line : Text) : Padded line line := by
    simpa using Padded.intro [] [] (by decide) (by decide)
  have plain : LaidOut ls t :=
    .lineFeed (bare _) (.lineFeed (bare _) (.unfinished (bare _) (by decide)))
  have spaced : LaidOut ls u :=
    .carriageReturn (.intro ['\u3000'] ['\r'] (by decide) (by decide))
      (.lineFeed (.intro ['\x0b'] [] (by decide) (by decide))
        (.carriageReturn (.intro ['\t'] ['\u2028'] (by decide) (by decide))
          .empty))
  exact ⟨flat, plain, spaced, (convertText_eq_of_laidOut {} flat plain spaced ⟨"board.drl"⟩).1⟩

end DrillPost.Conversion
