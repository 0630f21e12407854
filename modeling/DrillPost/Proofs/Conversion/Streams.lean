import DrillPost.Conversion.Stream
import DrillPost.Proofs.Text.Decoding

/-!
# Streams and documents

A stream is cut at its line feeds, and its lines are decoded one at a time; a document is decoded as
a whole and cut then. The two ways drop other carriage returns at the ends of lines: a stream one
behind its last line too. That is a blank, and a line is trimmed before it is read. So a stream is
converted like the document that it decodes to.

* `run_congr`: lines that are equal when they are trimmed are converted alike;
* `trim_linesOf`: the lines of octets and those of the document that they decode to;
* `convertStream_of_octets`: the conversion of a stream that does not fail;
* `convertStream_eq_convertText`: streams are converted like documents.
-/

namespace DrillPost.Conversion

/-! ## Lines that are equal when they are trimmed -/

theorem ofLine_congr {line other : Text} (h : Text.trim line = Text.trim other) (b : Bool) :
    Excellon.Action.ofLine b line = Excellon.Action.ofLine b other := by
  unfold Excellon.Action.ofLine
  rw [h]

theorem step_congr (d : Drilling) (p : Progress) {line other : Text}
    (h : Text.trim line = Text.trim other) : step d p line = step d p other := by
  simp only [step, ofLine_congr h, h]

/-- Lines that are equal when they are trimmed are converted alike. -/
theorem run_congr (d : Drilling) (p : Progress) {ls ms : List Text}
    (h : ls.map Text.trim = ms.map Text.trim) : run d p ls = run d p ms := by
  induction ls generalizing p ms with
  | nil =>
    obtain rfl : ms = [] := by simpa using h.symm
    rfl
  | cons l ls ih =>
    cases ms with
    | nil => simp at h
    | cons m ms =>
      obtain ⟨hl, hls⟩ := List.cons.inj h
      simp only [run_cons, step_congr d p hl, ih _ hls]

/-! ## The lines of a stream -/

theorem trim_decodeLossy_dropFinal {b : UInt8} (hb : b.toNat < 128)
    (blank : Text.isBlank (Char.ofNat b.toNat) = true) (octets : List UInt8) :
    Text.trim (Utf8.decodeLossy (dropFinal b octets)) = Text.trim (Utf8.decodeLossy octets) := by
  rcases List.eq_nil_or_concat octets with rfl | ⟨front, x, rfl⟩
  · rfl
  · rw [List.concat_eq_append]
    by_cases hx : x = b
    · subst hx
      rw [dropFinal_concat_self, Utf8.decodeLossy_append_cons hb]
      exact (Text.trim_concat blank _).symm
    · rw [dropFinal_concat_of_ne front (beq_eq_false_iff_ne.2 hx)]

/-- The lines of octets are those of the document that they decode to, blanks at their ends
aside. -/
theorem trim_linesOf (octets : List UInt8) :
    (Stream.linesOf octets).map Text.trim =
      (Text.lines (Utf8.decodeLossy octets)).map Text.trim := by
  simp only [Stream.linesOf, Text.lines, Utf8.pieces_decodeLossy, List.map_map]
  refine List.map_congr_left fun piece _ => ?_
  simp only [Function.comp_apply, Text.trim_withoutLineEnd, Stream.withoutLineEnd]
  rw [trim_decodeLossy_dropFinal (by decide) (by decide),
    trim_decodeLossy_dropFinal (by decide) (by decide)]

/-- A stream that does not fail is converted like the document that it decodes to. -/
theorem convertStream_of_octets (s : Settings) (path : Path) (octets : List UInt8) :
    convertStream s path { octets } =
      { events := (convertLines s (Text.lines (Utf8.decodeLossy octets))).events
        result := .ok (convertText s (Utf8.decodeLossy octets)) } := by
  have same : convertLines s (Stream.linesOf octets) =
      convertLines s (Text.lines (Utf8.decodeLossy octets)) :=
    run_congr s.drilling {} (trim_linesOf octets)
  simp only [convertStream, Stream.lines, same, convertText]

/-- **Streams are converted like documents.** A stream that does not fail gives the program and the
summary of the document that its octets decode to, and a listener hears the same events in the same
order, whatever the octets are; for cutting them at line feeds and decoding the lines is decoding
them and cutting the text. In particular, the octets of a text give the program and the summary of
this text. -/
theorem convertStream_eq_convertText (s : Settings) (path : Path) (octets : List UInt8) :
    let document := Utf8.decodeLossy octets
    let outcome := convertStream s path { octets }
    outcome.result = .ok (convertText s document) ∧
      outcome.events = (convertLines s (Text.lines document)).events ∧
      (pieces 0x0A octets).map Utf8.decodeLossy = pieces '\n' document ∧
      ∀ text, octets = Utf8.encode text → outcome.result = .ok (convertText s text) := by
  intro document outcome
  have converted := convertStream_of_octets s path octets
  refine ⟨congrArg Outcome.result converted, congrArg Outcome.events converted,
    (Utf8.pieces_decodeLossy octets).symm, ?_⟩
  rintro text rfl
  have back : document = text := Utf8.decodeLossy_encode text
  rw [← back]
  exact congrArg Outcome.result converted

end DrillPost.Conversion
