import DrillPost.Log.Directive
import DrillPost.Proofs.Pattern.Reading
import DrillPost.Proofs.Text.Decoding
import DrillPost.Proofs.Text.Letters
import DrillPost.Proofs.Text.Trimming
import Mathlib

/-!
# What a log directive says

* `levelOf_eq_none_of_isBlank`: no text with a blank in it is a level;
* `FieldCondition.read_append_word`: fields may be tested for words;
* `Extent.cut_ofText`, `Extent.cutFrom_append`: a piece is found again where it has been measured;
* `Pieces`, `Pieces.text`: the pieces of a directive, and the text that they make;
* `read_text`: that text describes the directive which the pieces stand for;
* `read_word`: a text without brackets and signs of equality is a level, or else a name.
-/

namespace DrillPost.Log

open Text (isBlank trim trimLeft trimRight)

/-! ## Levels -/

theorem isBlank_eq_false_of_startsDirective {c : Char} (h : startsDirective c = true) :
    isBlank c = false := by
  cases blank : isBlank c with
  | false => rfl
  | true =>
    simp only [startsDirective, Text.isAlphanumeric_eq_false_of_isBlank blank, Bool.or_false,
      Bool.or_eq_true, beq_iff_eq] at h
    rcases h with (rfl | rfl) | rfl <;> cases blank

/-- No level has a blank in it. -/
theorem levelOf_eq_none_of_isBlank {t : Text} {c : Char} (hc : c ∈ t) (h : isBlank c = true) :
    levelOf t = none := by
  have names : (levelNames.all fun entry => entry.1.all fun x => !isBlank x) = true := by
    decide +kernel
  have noName : levelNames.lookup (t.map Char.toLower) = none := by
    refine List.lookup_eq_none_iff.2 fun entry he => bne_iff_ne.2 fun same => ?_
    have plain := List.all_eq_true.1 (List.all_eq_true.1 names entry he) c.toLower
      (same ▸ List.mem_map_of_mem hc)
    rw [Text.isBlank_toLower, h] at plain
    cases plain
  have noNumber : ∀ number : Text, c ∈ number → number.all Number.isDigit = false := by
    refine fun number hn => List.all_eq_false.2 ⟨c, hn, fun digit => ?_⟩
    have letter := Text.isAlphanum_eq_false_of_isBlank h
    simp only [Number.isDigit] at digit
    simp [Char.isAlphanum, digit] at letter
  unfold levelOf
  split
  · have unsigned := (List.mem_cons.1 hc).resolve_left fun sign => by subst sign; cases h
    simp only [noNumber _ unsigned, Bool.and_false, Bool.false_eq_true, if_false, noName]
  · simp only [noNumber _ hc, Bool.and_false, Bool.false_eq_true, if_false, noName]

/-! ## Fields -/

/-- A field may be tested for any word. -/
theorem FieldCondition.read_append_word {name word : Text} (hn : '=' ∉ name) (hw : '=' ∉ word)
    (plain : ∀ c ∈ word, Pattern.IsPlain c) :
    FieldCondition.read (name ++ '=' :: word) = some ⟨name, true⟩ := by
  have test : isTest word = true := by
    rw [isTest, Pattern.isPattern_of_plain plain, Bool.or_true]
  rw [FieldCondition.read, splitOn_append_cons hn, splitOn_of_notMem hw]
  exact if_pos test

/-! ## Pieces cut out of a text -/

namespace Extent

/-- A piece that has been measured behind a text is cut out of it again. -/
theorem cut_ofText (before piece after : Text) :
    (ofText (Utf8.encode before).length piece).cut (before ++ (piece ++ after)) = some piece := by
  rw [cut, ofText, Utf8.encode_append, Utf8.encode_append, List.drop_left, List.take_left,
    Utf8.decode_encode]

theorem cutFrom_append (before after : Text) :
    cutFrom (Utf8.encode before).length (before ++ after) = some after := by
  rw [cutFrom, Utf8.encode_append, List.drop_left, Utf8.decode_encode]

theorem stop_ofText (before piece : Text) :
    (ofText (Utf8.encode before).length piece).stop = (Utf8.encode (before ++ piece)).length := by
  rw [stop, ofText, Utf8.encode_append, List.length_append]

end Extent

theorem length_encode_append {u : Text} {n : Nat} (h : (Utf8.encode u).length = n) (t : Text) :
    (Utf8.encode (t ++ u)).length = (Utf8.encode t).length + n := by
  rw [Utf8.encode_append, List.length_append, h]

/-! ## The pieces of a directive -/

/-- What stands in the brackets of a directive: the name of a span, and in braces a field. -/
structure Brackets where
  span : Text
  field : Option Text := none

namespace Brackets

/-- The text behind the opening bracket. -/
def inside (b : Brackets) : Text :=
  match b.field with
  | none => b.span ++ [']']
  | some field => b.span ++ '\x7b' :: (field ++ ['\x7d', ']'])

/-- The pieces end where the reader looks for their ends, and braces are not empty. -/
structure Delimited (b : Brackets) : Prop where
  span : ∀ c ∈ b.span, c ≠ ']' ∧ c ≠ '\x7b'
  field : ∀ t ∈ b.field, t ≠ [] ∧ ∀ c ∈ t, c ≠ '\x7d'

/-- Whether a span is asked for. Brackets without a field ask for one even where they are empty. -/
def asksForSpan (b : Brackets) : Bool := b.field.isNone || !b.span.isEmpty

end Brackets

/-- The text of a level behind its sign of equality. -/
def levelText : Option Text → Text
  | none => []
  | some level => '=' :: level

/-- The pieces of a directive. -/
structure Pieces where
  name : Text
  brackets : Option Brackets := none
  level : Option Text := none

namespace Pieces

/-- The text of the brackets. -/
def bracketText (p : Pieces) : Text := p.brackets.elim [] fun b => '[' :: b.inside

/-- The text that the pieces make. -/
def text (p : Pieces) : Text := p.name ++ (p.bracketText ++ levelText p.level)

/-- The pieces end where the reader looks for their ends, and begin as a directive does; at least
one stands behind the name. -/
structure Delimited (p : Pieces) : Prop where
  name : ∀ c ∈ p.name, c ≠ '=' ∧ c ≠ '['
  start : ∀ c ∈ p.name.head?, startsDirective c = true
  brackets : ∀ b ∈ p.brackets, b.Delimited
  named : p.name = [] → p.brackets.isSome = true
  further : p.brackets.isSome = true ∨ p.level.isSome = true

/-- The directive that the pieces stand for. -/
def directive (p : Pieces) : Option Directive := do
  let field ← (p.brackets.bind (·.field)).mapM FieldCondition.read
  let limit ← p.level.elim (some (some .trace)) levelAfter
  return { beginning := p.name, inSpan := p.brackets.any (·.asksForSpan), field, limit }

end Pieces

/-! ## Where the reader finds the pieces -/

namespace Layout

theorem ending_levelText {l : Layout} (h : l.level = none) (start : Nat) (level : Option Text) :
    l.ending start (levelText level) = some { l with level := level.map fun _ => start + 1 } := by
  cases level with
  | none =>
    cases l
    cases h
    rfl
  | some level => rfl

/-- The reader finds the pieces in brackets where they stand. -/
theorem brackets_inside {b : Brackets} (h : b.Delimited) (name : Extent) (before rest : Text) :
    { name : Layout }.brackets (Utf8.encode before).length (b.inside ++ rest) =
      { name
        span := if b.asksForSpan then some (.ofText (Utf8.encode before).length b.span) else none
        field := b.field.map fun t =>
          .ofText (Utf8.encode (before ++ b.span ++ ['\x7b'])).length t : Layout }.ending
        (Utf8.encode (before ++ b.inside)).length rest := by
  obtain ⟨span, field⟩ := b
  have inSpan : ∀ c ∈ span, (c != ']' && c != '\x7b') = true := by simpa using h.span
  cases field with
  | none =>
    have run : (span ++ ']' :: rest).takeWhile (fun c => c != ']' && c != '\x7b') = span :=
      takeWhile_append_of_endsRun inSpan (by simp)
    have place : (Utf8.encode (before ++ (span ++ [']']))).length =
        (Utf8.encode (before ++ span)).length + 1 := by
      rw [← List.append_assoc, length_encode_append (n := 1) (by decide)]
    simp only [brackets, Brackets.inside, Brackets.asksForSpan, List.append_assoc,
      List.cons_append, List.nil_append, run, List.drop_left, Extent.stop_ofText, place]
    rfl
  | some field =>
    obtain ⟨nonempty, inField⟩ := h.field field rfl
    have run : (span ++ '\x7b' :: (field ++ '\x7d' :: ']' :: rest)).takeWhile
        (fun c => c != ']' && c != '\x7b') = span :=
      takeWhile_append_of_endsRun inSpan (by simp)
    have run' : (field ++ '\x7d' :: ']' :: rest).takeWhile (· != '\x7d') = field :=
      takeWhile_append_of_endsRun (by simpa using inField) (by simp)
    have place : (Utf8.encode (before ++ span)).length + 1 =
        (Utf8.encode (before ++ span ++ ['\x7b'])).length :=
      (length_encode_append (by decide) _).symm
    have place' : (Utf8.encode (before ++ (span ++ '\x7b' :: (field ++ ['\x7d', ']'])))).length =
        (Utf8.encode (before ++ span ++ ['\x7b'] ++ field)).length + 2 := by
      rw [← length_encode_append (u := ['\x7d', ']']) (by decide)]
      simp only [List.append_assoc, List.cons_append, List.nil_append]
    simp only [brackets, Brackets.inside, List.append_assoc, List.cons_append, List.nil_append,
      run, List.drop_left, Extent.stop_ofText, place, place']
    split
    case h_1 opening => cases opening
    case h_3 opening => cases opening
    case h_2 opening =>
      cases opening
      simp only [run', List.drop_left, List.isEmpty_eq_false_iff.2 nonempty]
      cases span <;> rfl

end Layout

namespace Pieces

variable {p : Pieces}

/-- The places of the pieces in their text. -/
def layout (p : Pieces) : Layout where
  name := .ofText 0 p.name
  span := p.brackets.bind fun b =>
    if b.asksForSpan then some (.ofText (Utf8.encode (p.name ++ ['['])).length b.span) else none
  field := p.brackets.bind fun b => b.field.map fun t =>
    .ofText (Utf8.encode (p.name ++ ['['] ++ b.span ++ ['\x7b'])).length t
  level := p.level.map fun _ => (Utf8.encode (p.name ++ p.bracketText)).length + 1

theorem bracketText_append_levelText (h : p.Delimited) :
    ∃ c rest, (c = '=' ∨ c = '[') ∧ p.bracketText ++ levelText p.level = c :: rest := by
  obtain ⟨name, brackets, level⟩ := p
  cases brackets with
  | some b => exact ⟨'[', _, .inr rfl, rfl⟩
  | none =>
    obtain ⟨level, rfl⟩ := Option.isSome_iff_exists.1 (h.further.resolve_left (by simp))
    exact ⟨'=', level, .inl rfl, rfl⟩

theorem ofText_text (h : p.Delimited) : Layout.ofText p.name.length p.text = some p.layout := by
  obtain ⟨name, brackets, level⟩ := p
  have stop : (Extent.ofText 0 name).stop = (Utf8.encode name).length := Extent.stop_ofText [] name
  rw [Layout.ofText, text, List.take_left, List.drop_left]
  cases brackets with
  | some b =>
    change { name := Extent.ofText 0 name : Layout }.brackets ((Extent.ofText 0 name).stop + 1)
      (b.inside ++ levelText level) = _
    rw [stop, ← length_encode_append (u := ['[']) (by decide), Layout.brackets_inside
      (h.brackets b rfl), Layout.ending_levelText rfl, List.append_assoc name ['['] b.inside]
    rfl
  | none =>
    obtain ⟨level, rfl⟩ := Option.isSome_iff_exists.1 (h.further.resolve_left (by simp))
    change { name := Extent.ofText 0 name : Layout }.ending (Extent.ofText 0 name).stop
      (levelText (some level)) = _
    rw [Layout.ending_levelText rfl, stop, layout, bracketText]
    simp

theorem cut_span {b : Brackets} (h : p.brackets = some b) :
    (Extent.ofText (Utf8.encode (p.name ++ ['['])).length b.span).cut p.text = some b.span := by
  obtain ⟨after, inside⟩ : ∃ after, b.inside = b.span ++ after := by
    unfold Brackets.inside
    split <;> exact ⟨_, rfl⟩
  have whole : p.text = p.name ++ ['['] ++ (b.span ++ (after ++ levelText p.level)) := by
    simp [text, bracketText, h, inside]
  rw [whole, Extent.cut_ofText]

theorem cut_field {b : Brackets} (h : p.brackets = some b) {t : Text} (ht : b.field = some t) :
    (Extent.ofText (Utf8.encode (p.name ++ ['['] ++ b.span ++ ['\x7b'])).length t).cut p.text =
      some t := by
  have whole : p.text =
      p.name ++ ['['] ++ b.span ++ ['\x7b'] ++ (t ++ ('\x7d' :: ']' :: levelText p.level)) := by
    simp [text, bracketText, h, Brackets.inside, ht]
  rw [whole, Extent.cut_ofText]

theorem cutFrom_level {level : Text} (h : p.level = some level) :
    Extent.cutFrom ((Utf8.encode (p.name ++ p.bracketText)).length + 1) p.text = some level := by
  have whole : p.text = p.name ++ p.bracketText ++ ['='] ++ level := by
    simp [text, h, levelText]
  rw [whole, ← length_encode_append (u := ['=']) (by decide), Extent.cutFrom_append]

/-- The pieces are cut out of their text again. -/
theorem ofLayout_text (p : Pieces) : Directive.ofLayout p.text p.layout = p.directive := by
  have name : p.layout.name.cut p.text = some p.name := Extent.cut_ofText [] p.name _
  have span : ∃ found, (p.layout.span.mapM fun e => e.cut p.text) = some found ∧
      found.isSome = p.brackets.any (·.asksForSpan) := by
    cases h : p.brackets with
    | none => exact ⟨none, by rw [layout, h]; rfl, rfl⟩
    | some b =>
      cases asks : b.asksForSpan with
      | false => exact ⟨none, by rw [layout, h]; simp [asks], by simp [asks]⟩
      | true => exact ⟨some b.span, by rw [layout, h]; simp [asks, cut_span h], by simp [asks]⟩
  have field : (p.layout.field.mapM fun e => (e.cut p.text).bind FieldCondition.read) =
      (p.brackets.bind (·.field)).mapM FieldCondition.read := by
    cases h : p.brackets with
    | none => rw [layout, h]; rfl
    | some b =>
      cases ht : b.field with
      | none => rw [layout, h]; simp [ht]
      | some t =>
        rw [layout, h]
        simp only [Option.bind_some, ht, Option.map_some, Option.mapM_some, cut_field h ht]
  obtain ⟨found, cut, asked⟩ := span
  unfold Directive.ofLayout directive
  rw [name, cut, field, ← asked]
  cases h : p.level with
  | none => rw [layout, h]; rfl
  | some level =>
    rw [layout, h]
    simp only [Option.map_some, cutFrom_level h]
    rfl

theorem starts (h : p.Delimited) :
    ∃ c rest, p.text = c :: rest ∧ (c = '[' ∨ startsDirective c = true) := by
  rw [text]
  cases hn : p.name with
  | nil =>
    obtain ⟨b, hb⟩ := Option.isSome_iff_exists.1 (h.named hn)
    rw [bracketText, hb]
    exact ⟨'[', _, rfl, .inl rfl⟩
  | cons c name => exact ⟨c, _, rfl, .inr (h.start c (by rw [hn]; rfl))⟩

theorem trim_text (h : p.Delimited) :
    trim p.text = { p with level := p.level.map trimRight }.text := by
  have left : trimLeft p.text = p.text := by
    obtain ⟨c, rest, whole, start⟩ := starts h
    rw [whole]
    refine EndsRun.dropWhile_eq_self ((endsRun_cons ..).2 ?_)
    rcases start with rfl | start
    · rfl
    · exact isBlank_eq_false_of_startsDirective start
  rw [trim, left]
  cases hl : p.level with
  | some level =>
    have whole : p.text = p.name ++ p.bracketText ++ '=' :: level := by simp [text, hl, levelText]
    rw [whole, Text.trimRight_append_cons (by decide)]
    simp [text, bracketText, levelText]
  | none =>
    obtain ⟨b, hb⟩ := Option.isSome_iff_exists.1 (h.further.resolve_right (by simp [hl]))
    obtain ⟨front, closed⟩ : ∃ front, b.inside = front ++ [']'] := by
      unfold Brackets.inside
      split
      · exact ⟨_, rfl⟩
      · rename_i field _
        exact ⟨b.span ++ '\x7b' :: (field ++ ['\x7d']), by simp⟩
    have whole : p.text = p.name ++ '[' :: front ++ [']'] := by
      simp [text, hl, levelText, bracketText, hb, closed]
    rw [whole, Text.trimRight_append_cons (by decide)]
    simp [text, levelText, bracketText, hb, closed, trimRight]

end Pieces

/-- **What is written is read.** The text of pieces describes the directive that they stand for. -/
theorem read_text {p : Pieces} (h : p.Delimited) : Directive.read p.text = p.directive := by
  let q : Pieces := { p with level := p.level.map trimRight }
  have hq : q.Delimited := ⟨h.name, h.start, h.brackets, h.named, by simpa [q] using h.further⟩
  have places : q.layout = p.layout := by
    simp only [q, Pieces.layout, Option.map_map]
    rfl
  obtain ⟨c, rest, sign, behind⟩ := Pieces.bracketText_append_levelText hq
  have run : (q.text.takeWhile fun c => c != '=' && c != '[') = p.name := by
    rw [Pieces.text, behind]
    refine takeWhile_append_of_endsRun (by simpa using h.name) ((endsRun_cons ..).2 ?_)
    rcases sign with rfl | rfl <;> rfl
  have begins : (q.text.head?.any fun c => c == '[' || startsDirective c) = true := by
    obtain ⟨c, rest, whole, start⟩ := Pieces.starts hq
    rw [whole]
    simpa using start
  have further : p.name ≠ q.text := by
    rw [Pieces.text, behind]
    simp [q]
  have trimmed : trim p.text = q.text := Pieces.trim_text h
  simp only [Directive.read, trimmed, run, begins, further, Bool.not_true, Bool.false_eq_true,
    if_false]
  rw [Pieces.ofText_text hq, Option.bind_some, places, Pieces.ofLayout_text]

/-- A text without brackets and signs of equality is a level, or else a name. -/
theorem read_word {t : Text} (plain : ∀ c ∈ t, c ≠ '=' ∧ c ≠ '[')
    (start : ∃ c ∈ (trim t).head?, startsDirective c = true) :
    Directive.read t = some (Directive.ofWord t) := by
  have run : ((trim t).takeWhile fun c => c != '=' && c != '[') = trim t := by
    rw [List.takeWhile_eq_self_iff]
    intro c hc
    simpa using plain c (Text.mem_of_mem_trim hc)
  obtain ⟨c, hc, starts⟩ := start
  have begins : ((trim t).head?.any fun c => c == '[' || startsDirective c) = true := by
    rw [Option.mem_def.1 hc, Option.any_some, starts, Bool.or_true]
  simp only [Directive.read, run, begins, Bool.not_true, Bool.false_eq_true, if_false, if_true]

end DrillPost.Log
