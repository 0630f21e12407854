import DrillPost.Proofs.Json.Documents
import DrillPost.Proofs.Toml.Documents

/-!
# Documents with sections are read

A document gives keys with values of any kind line by line, at first its own, then those of each
section under a header. When no key is there twice, its entries are these keys with their values,
in their order, and behind them the sections as tables. Every text can be spelled as a key.

* `Line`, `lines`: lines, and what they are read as (`Reads.lines`, `putAll_lines`);
* `Heading`, `headings`: sections under their headers (`foldlM_addSection`);
* `parse_document`: the entries of a whole document;
* `exists_spells`: how to spell a text as a key.
-/

namespace DrillPost

/-- A key that is not there has no value. -/
theorem lookup_eq_none_of_notMem {α : Type} {entries : List (Text × α)} {k : Text}
    (h : k ∉ entries.map Prod.fst) : entries.lookup k = none := by
  rw [List.lookup_eq_none_iff]
  intro e he
  simp only [bne_iff_ne, ne_eq]
  rintro rfl
  exact h (List.mem_map_of_mem he)

namespace Toml

open Json (hexDigit hex4)

/-! ## Spellings -/

/-- The four digits of a number of 16 bits in base 16. -/
def hexDigits (n : Nat) : Text :=
  [hexDigit (n / 4096), hexDigit (n / 256 % 16), hexDigit (n / 16 % 16), hexDigit (n % 16)]

theorem hex4_hexDigits {n : Nat} (h : n < 65536) :
    hex4 (hexDigit (n / 4096)) (hexDigit (n / 256 % 16)) (hexDigit (n / 16 % 16))
      (hexDigit (n % 16)) = some n := by
  have value : ((n / 4096 * 16 + n / 256 % 16) * 16 + n / 16 % 16) * 16 + n % 16 = n := by omega
  simp [hex4, Json.hexValue_hexDigit (show n / 4096 < 16 by omega),
    Json.hexValue_hexDigit (show n / 256 % 16 < 16 by omega),
    Json.hexValue_hexDigit (show n / 16 % 16 < 16 by omega),
    Json.hexValue_hexDigit (show n % 16 < 16 by omega), value]

/-- A character as its number. -/
def escape (c : Char) : Text :=
  '\\' :: 'U' :: (hexDigits (c.toNat / 65536) ++ hexDigits (c.toNat % 65536))

theorem escaped_wide {a b c d e f g h x : Char} {m n : Nat} (high : hex4 a b c d = some m)
    (low : hex4 e f g h = some n) (scalar : Text.scalar (m * 0x10000 + n) = some x) (r : Text) :
    escaped ('U' :: a :: b :: c :: d :: e :: f :: g :: h :: r) = some (x, r) := by
  rw [escaped, high, low, Option.bind_some, Option.bind_some, scalar, Option.map_some]

theorem escaped_escape (c : Char) (r : Text) :
    escaped ('U' :: (hexDigits (c.toNat / 65536) ++ hexDigits (c.toNat % 65536) ++ r)) =
      some (c, r) := by
  have valid : c.toNat < 0xD800 ∨ 0xDFFF < c.toNat ∧ c.toNat < 0x110000 := c.valid
  have high := hex4_hexDigits (n := c.toNat / 65536) (by omega)
  have low := hex4_hexDigits (n := c.toNat % 65536) (by omega)
  have number : c.toNat / 65536 * 0x10000 + c.toNat % 65536 = c.toNat := by omega
  refine escaped_wide high low ?_ r
  simp [number, Text.scalar, valid]

theorem basicString_escape {fuel : Nat} {k : Text} (h : k.length < fuel) (r : Text) :
    basicString fuel (k.flatMap escape ++ '"' :: r) = some (k, r) := by
  induction k generalizing fuel with
  | nil =>
    obtain ⟨fuel, rfl⟩ := Nat.exists_eq_succ_of_ne_zero (Nat.ne_of_gt h)
    rfl
  | cons c k ih =>
    rw [List.length_cons] at h
    obtain ⟨fuel, rfl⟩ := Nat.exists_eq_succ_of_ne_zero (Nat.ne_of_gt (Nat.zero_lt_of_lt h))
    have rest := ih (Nat.succ_lt_succ_iff.1 h)
    have first := escaped_escape c (k.flatMap escape ++ '"' :: r)
    simp only [List.flatMap_cons, escape, List.cons_append, List.append_assoc, basicString] at *
    simp only [first, Option.bind_some, rest, Option.map_some]

/-- **Every text is spelled somehow**: in quotes, with the number of each character. -/
theorem exists_spells (k : Text) : ∃ name : String, Spells name.toList k := by
  refine ⟨String.ofList ('"' :: (k.flatMap escape ++ ['"'])), fun r => ?_⟩
  have long : k.length ≤ (k.flatMap escape).length := by
    induction k with
    | nil => rfl
    | cons c k ih =>
      rw [List.flatMap_cons, List.length_append, List.length_cons]
      exact (Nat.add_le_add ih (by simp [escape])).trans_eq (Nat.add_comm ..)
  rw [String.toList_ofList, List.cons_append, List.append_assoc]
  exact basicString_escape (by
    simp only [List.length_append]
    omega) _

/-! ## Lines -/

/-- A line of a document: a key in some spelling, and a text for its value. -/
structure Line where
  name : String
  key : Text
  text : Text
  value : Value
  spells : Spells name.toList key
  fills : FillsLine text value

namespace Line

/-- The key and the value. -/
def entry (l : Line) : Text × Value := (l.key, l.value)

/-- What a line is read as. -/
def pair (l : Line) : Pair := ⟨[], l.key, l.value⟩

end Line

/-- The text of lines. -/
def lines (ls : List Line) : Text := ls.flatMap fun l => assignment l.name l.text

theorem Reads.lines {t : Text} {ss : List Statement} (h : Reads t ss) (ls : List Line) :
    Reads (lines ls ++ t) (ls.map (.pair ·.pair) ++ ss) := by
  induction ls with
  | nil => exact h
  | cons l ls ih =>
    have line := ih.line l.spells l.fills
    rwa [Toml.lines, List.flatMap_cons, List.append_assoc]

variable {es : Entries} {k : Text} {v : Value}

theorem fresh_of_nodup {e : Text × Value} {rest : Entries}
    (distinct : ((es ++ e :: rest).map Prod.fst).Nodup) : e.1 ∉ es.map Prod.fst := by
  have apart := List.nodup_append.1 (List.map_append ▸ distinct)
  exact fun h => apart.2.2 _ h _ List.mem_cons_self rfl

theorem place_of_notMem (h : k ∉ es.map Prod.fst) : es.place k v = some (es ++ [(k, v)]) := by
  simp [Entries.place, lookup_eq_none_of_notMem h]

/-- **The entries of lines** are their keys with their values, if no key is there twice. -/
theorem putAll_lines {ls : List Line} (distinct : ((es ++ ls.map (·.entry)).map Prod.fst).Nodup) :
    Entries.putAll es (ls.map (·.pair)) = some (es ++ ls.map (·.entry)) := by
  induction ls generalizing es with
  | nil => simp [Entries.putAll]
  | cons l ls ih =>
    rw [List.map_cons] at distinct
    have placed : es.put [] l.key l.value = some (es ++ [l.entry]) :=
      place_of_notMem (fresh_of_nodup distinct)
    have all := ih (List.append_cons es l.entry _ ▸ distinct)
    rw [Entries.putAll] at all ⊢
    rw [List.map_cons, List.foldlM_cons]
    simp only [Line.pair, placed, Option.bind_eq_bind, Option.bind_some] at all ⊢
    rw [all, List.map_cons, List.append_assoc, List.singleton_append]

/-! ## Sections -/

/-- A section: its name, and its lines. -/
structure Heading where
  name : String
  lines : List Line
  bare : BareKey name.toList
  distinct : ((lines.map (·.entry)).map Prod.fst).Nodup

namespace Heading

/-- The header of a section. -/
def header (s : Heading) : Header := ⟨false, [], s.name.toList⟩

/-- The name of a section, and its table. -/
def entry (s : Heading) : Text × Value := (s.name.toList, .table .header (s.lines.map (·.entry)))

/-- The text of a section. -/
def text (s : Heading) : Text := '[' :: (s.name.toList ++ ']' :: '\n' :: Toml.lines s.lines)

/-- What a section is read as. -/
def statements (s : Heading) : List Statement := .header s.header :: s.lines.map (.pair ·.pair)

theorem addSection_eq (s : Heading) (fresh : s.name.toList ∉ es.map Prod.fst) :
    es.addSection s.header (s.lines.map (·.pair)) = some (es ++ [s.entry]) := by
  have table : Entries.putAll [] (s.lines.map (·.pair)) = some (s.lines.map (·.entry)) :=
    putAll_lines s.distinct
  simp only [Entries.addSection, header, Entries.within, lookup_eq_none_of_notMem fresh, table]
  rfl

end Heading

variable {ss : List Heading}

theorem reads_headings (ss : List Heading) :
    Reads (ss.flatMap (·.text)) (ss.flatMap (·.statements)) := by
  induction ss with
  | nil => exact .nil
  | cons s ss ih =>
    have section_ := (ih.lines s.lines).header s.name s.bare
    simpa [Heading.text, Heading.statements, Heading.header] using section_

theorem sections_lines (ls : List Line) (rest : List Statement) :
    sections (ls.map (.pair ·.pair) ++ rest) =
      (ls.map (·.pair) ++ (sections rest).1, (sections rest).2) := by
  induction ls with
  | nil => rfl
  | cons l ls ih =>
    have cons (r : List Statement) : sections (.pair l.pair :: r) =
        (l.pair :: (sections r).1, (sections r).2) := rfl
    rw [List.map_cons, List.cons_append, cons, ih]
    rfl

theorem sections_headings (ss : List Heading) :
    sections (ss.flatMap (·.statements)) =
      ([], ss.map fun s => (s.header, s.lines.map (·.pair))) := by
  induction ss with
  | nil => rfl
  | cons s ss ih =>
    have cons (r : List Statement) : sections (.header s.header :: r) =
        ([], (s.header, (sections r).1) :: (sections r).2) := rfl
    rw [List.flatMap_cons, Heading.statements, List.cons_append, cons, sections_lines, ih,
      List.append_nil, List.map_cons]

/-- **The entries of sections** are their tables, if no name is there twice. -/
theorem foldlM_addSection (distinct : ((es ++ ss.map (·.entry)).map Prod.fst).Nodup) :
    (ss.map fun s => (s.header, s.lines.map (·.pair))).foldlM
      (fun es (h, pairs) => Entries.addSection es h pairs) es = some (es ++ ss.map (·.entry)) := by
  induction ss generalizing es with
  | nil => simp
  | cons s ss ih =>
    rw [List.map_cons] at distinct
    have added := s.addSection_eq (fresh_of_nodup distinct)
    have all := ih (List.append_cons es s.entry _ ▸ distinct)
    rw [List.map_cons, List.foldlM_cons]
    simp only [added, Option.bind_eq_bind, Option.bind_some, all]
    rw [List.map_cons, List.append_assoc, List.singleton_append]

/-- The text of a document: lines, and behind them sections. -/
def document (ls : List Line) (ss : List Heading) : Text := lines ls ++ ss.flatMap (·.text)

/-- **The entries of a document** are those of its lines and its sections. -/
theorem parse_document {ls : List Line}
    (distinct : ((ls.map (·.entry) ++ ss.map (·.entry)).map Prod.fst).Nodup) :
    parse (document ls ss) = some (ls.map (·.entry) ++ ss.map (·.entry)) := by
  have root : Entries.putAll [] (ls.map (·.pair)) = some (ls.map (·.entry)) := by
    refine putAll_lines ?_
    rw [List.map_append] at distinct
    exact (List.nodup_append.1 distinct).1
  rw [document, parse_of_reads ((reads_headings ss).lines ls), assemble, sections_lines,
    sections_headings]
  simp only [List.append_nil, root, Option.bind_some]
  exact foldlM_addSection distinct

end Toml

end DrillPost
