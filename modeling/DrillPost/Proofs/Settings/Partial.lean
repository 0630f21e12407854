import DrillPost.Proofs.Settings.Overlays
import DrillPost.Proofs.Settings.Store
import DrillPost.Proofs.Text.Decoding
import DrillPost.Proofs.Toml.Sections

/-!
# Settings files that give some settings

A settings file need not give every setting. Those that it gives take the place of the defaults,
and the check then sees what has become of the defaults: a height that is admissible on its own may
clash with a default one. All files that give the same settings lead to the same outcome, whatever
their format and whatever else they hold, as long as their numbers are read exactly. TOML numbers
always are, JSON numbers with few digits are, and the others may be taken for a neighbour.

* `Format.Gives`, `Settings.Given`: what a text and a file give;
* `Format.Takes`, `Settings.Taken`: what they are taken for;
* `Format.Exact`, `Settings.Exact`: all numbers are read as what they stand for;
* `Settings.Outcome`: what comes of a file (`Settings.Given.outcome`);
* `Sheet`: the parts of a document (`Sheet.json`, `Sheet.toml`: its texts), and what these texts
  give (`Sheet.gives_json`, `Sheet.gives_toml`);
* `Settings.load_partial`: what is loaded from a file.
-/

namespace DrillPost

open Number

/-! ## Texts -/

namespace Format

/-- A text of a format gives an overlay. -/
def Gives : Format → Text → Overlay → Prop
  | .json, t, o => ∃ v, Json.parse t = some v ∧ Json.meaning.Gives v o
  | .toml, t, o => ∃ entries, Toml.parse t = some entries ∧
      Toml.meaning.Gives (.table .header entries) o

/-- A text of a format is taken for an overlay. -/
def Takes : Format → Text → Overlay → Prop
  | .json, t, o => ∃ v, Json.parse t = some v ∧ Json.taken.Gives v o
  | .toml, t, o => Gives .toml t o

/-- The numbers of a text are read as what they stand for. -/
def Exact : Format → Text → Prop
  | .json, t => ∀ v n, Json.parse t = some v → Json.IsFigure v n → n.IsKept
  | .toml, _ => True

variable {format : Format} {t : Text} {o o' : Overlay}

theorem Takes.read_eq (h : format.Takes t o) : format.read t = .ok (o.apply {}) := by
  cases format with
  | json =>
    obtain ⟨v, hv, gives⟩ := h
    have overlay := Json.respects_taken.overlay_eq gives
    simp only [read, Json.readSettings, Json.document, hv]
    exact congrArg (fun r => ((r.map fun o => o.apply {}).mapError SettingsFault.json)) overlay
  | toml =>
    obtain ⟨entries, hv, gives⟩ := h
    have overlay := Toml.respects.overlay_eq gives
    simp only [read, Toml.readSettings, hv, overlay]
    rfl

theorem Gives.takes_iff (h : format.Gives t o) : format.Takes t o ↔ format.Exact t := by
  cases format with
  | json =>
    obtain ⟨v, hv, gives⟩ := h
    have figures := Json.gives_taken_iff gives
    constructor
    · rintro ⟨w, hw, taken⟩ u n hu figure
      obtain rfl : v = w := Option.some.inj (hv.symm.trans hw)
      obtain rfl : v = u := Option.some.inj (hv.symm.trans hu)
      exact figures.1 taken n figure
    · intro exact
      exact ⟨v, hv, figures.2 fun n => exact v n hv⟩
  | toml => exact iff_of_true h trivial

theorem Gives.exists_takes_or (h : format.Gives t o) :
    (∃ o', format.Takes t o') ∨ format.read t = .error (.json .mismatch) := by
  cases format with
  | json =>
    obtain ⟨v, hv, gives⟩ := h
    refine (Json.exists_gives_taken_or gives).imp (fun ⟨o', taken⟩ => ⟨o', v, hv, taken⟩) ?_
    intro fault
    simp only [read, Json.readSettings, Json.document, hv]
    exact congrArg (fun r => ((r.map fun o => o.apply {}).mapError SettingsFault.json)) fault
  | toml => exact .inl ⟨o, h⟩

theorem Gives.takes_of_agrees (h : format.Gives t o) (ht : format.Takes t o')
    (ha : (o.apply {}).agrees (o'.apply {}) = true) : format.Takes t o := by
  cases format with
  | json =>
    obtain ⟨v, hv, gives⟩ := h
    obtain ⟨w, hw, taken⟩ := ht
    obtain rfl : v = w := Option.some.inj (hv.symm.trans hw)
    exact ⟨v, hv, Json.gives_taken_of_agrees gives taken ha⟩
  | toml => exact h

end Format

/-! ## Files -/

namespace Settings

/-- A file gives an overlay: its text does, in the format that its name says. -/
def Given (d : Disk) (p : Path) (o : Overlay) : Prop :=
  ∃ format t, Format.ofPath p = some format ∧ readText p d = .ok t ∧ format.Gives t o

/-- A file is taken for an overlay. -/
def Taken (d : Disk) (p : Path) (o : Overlay) : Prop :=
  ∃ format t, Format.ofPath p = some format ∧ readText p d = .ok t ∧ format.Takes t o

/-- The numbers of a file are read as what they stand for. -/
def Exact (d : Disk) (p : Path) : Prop :=
  ∀ format t, Format.ofPath p = some format → readText p d = .ok t → format.Exact t

/-- What comes of a file that gives an overlay. -/
structure Outcome (d : Disk) (p : Path) (o : Overlay) : Prop where
  /-- Where numbers are read exactly, the settings are those of the overlay, or they are refused for
  the first condition that these violate. -/
  loaded : Exact d p → (o.apply {}).Admissible → load p d = .ok (o.apply {})
  refused : Exact d p → ∀ v, (o.apply {}).FirstViolation v →
    load p d = .error (.invalid v.key v.reason)
  /-- Settings that equal those of the overlay are loaded only then. -/
  exact : (∃ t, load p d = .ok t ∧ (o.apply {}).agrees t = true) ↔
    (o.apply {}).Admissible ∧ Exact d p
  /-- Otherwise it depends on what the numbers are taken for, and one that has grown too large is
  refused. -/
  taken : (∃ o', Taken d p o' ∧ load p d = accept (o'.apply {})) ∨
    load p d = .error (.json .mismatch)

variable {d : Disk} {p : Path} {o : Overlay}

theorem Taken.load_eq (h : Taken d p o) : load p d = accept (o.apply {}) := by
  obtain ⟨format, t, hf, ht, takes⟩ := h
  rw [load, ht]
  simp only [Readings.ok_bind, hf, takes.read_eq]

theorem Given.taken_iff (h : Given d p o) : Taken d p o ↔ Exact d p := by
  obtain ⟨format, t, hf, ht, gives⟩ := h
  constructor
  · rintro ⟨format', t', hf', ht', takes⟩ format'' t'' hf'' ht''
    obtain rfl : format' = format'' := Option.some.inj (hf'.symm.trans hf'')
    obtain rfl : format = format' := Option.some.inj (hf.symm.trans hf')
    obtain rfl : t' = t'' := Except.ok.inj (ht'.symm.trans ht'')
    obtain rfl : t = t' := Except.ok.inj (ht.symm.trans ht')
    exact gives.takes_iff.1 takes
  · intro exact
    exact ⟨format, t, hf, ht, gives.takes_iff.2 (exact format t hf ht)⟩

theorem Given.exists_taken_or (h : Given d p o) :
    (∃ o', Taken d p o') ∨ load p d = .error (.json .mismatch) := by
  obtain ⟨format, t, hf, ht, gives⟩ := h
  refine gives.exists_takes_or.imp (fun ⟨o', takes⟩ => ⟨o', format, t, hf, ht, takes⟩)
    fun fault => ?_
  rw [load, ht]
  simp only [Readings.ok_bind, hf, fault]
  rfl

theorem Given.taken_of_agrees {o' : Overlay} (h : Given d p o) (ht : Taken d p o')
    (ha : (o.apply {}).agrees (o'.apply {}) = true) : Taken d p o := by
  obtain ⟨format, t, hf, hr, gives⟩ := h
  obtain ⟨format', t', hf', hr', takes⟩ := ht
  obtain rfl : format = format' := Option.some.inj (hf.symm.trans hf')
  obtain rfl : t = t' := Except.ok.inj (hr.symm.trans hr')
  exact ⟨format, t, hf, hr, gives.takes_of_agrees takes ha⟩

/-- **What comes of a file** that gives an overlay. -/
theorem Given.outcome (h : Given d p o) : Outcome d p o where
  loaded exact admissible := by
    rw [(h.taken_iff.2 exact).load_eq]
    exact accept_eq_ok_iff.2 ⟨rfl, admissible⟩
  refused exact v first := by
    rw [(h.taken_iff.2 exact).load_eq]
    exact accept_eq_error_iff.2 ⟨v, first, rfl⟩
  exact := by
    constructor
    · rintro ⟨t, ht, ha⟩
      rcases h.exists_taken_or with ⟨o', taken⟩ | fault
      · rw [taken.load_eq] at ht
        obtain ⟨rfl, -⟩ := accept_eq_ok_iff.1 ht
        have same := h.taken_of_agrees taken ha
        rw [← taken.load_eq, same.load_eq] at ht
        exact ⟨(accept_eq_ok_iff.1 ht).1 ▸ (accept_eq_ok_iff.1 ht).2, h.taken_iff.1 same⟩
      · rw [fault] at ht
        cases ht
    · rintro ⟨admissible, exact⟩
      refine ⟨_, ?_, admissible.agrees_self⟩
      rw [(h.taken_iff.2 exact).load_eq]
      exact accept_eq_ok_iff.2 ⟨rfl, admissible⟩
  taken := h.exists_taken_or.imp_left fun ⟨o', taken⟩ => ⟨o', taken, taken.load_eq⟩

theorem exact_of_toml (hf : Format.ofPath p = some .toml) : Exact d p := by
  intro format t hf' _
  obtain rfl : .toml = format := Option.some.inj (hf.symm.trans hf')
  trivial

/-- Short numbers are read exactly. -/
theorem exact_of_isShort (h : ∀ t v n, readText p d = .ok t → Json.parse t = some v →
    Json.IsFigure v n → n.IsShort) : Exact d p := by
  intro format t _ ht
  cases format with
  | json => exact fun v n hv figure => (h t v n ht hv figure).isKept
  | toml => trivial

end Settings

/-! ## Sheets -/

/-- Items with keys and values, of which no two have the same key. -/
structure Block {α β : Type} (entry : β → Text × α) where
  items : List β
  distinct : ((items.map entry).map Prod.fst).Nodup

/-- The keys and values of a block. -/
def Block.entries {α β : Type} {entry : β → Text × α} (b : Block entry) : List (Text × α) :=
  b.items.map entry

/-- The parts of a document: what stands outside the sections, and the sections that are there. -/
structure Sheet {α β : Type} (entry : β → Text × α) where
  top : Block entry
  drill : Option (Block entry)
  output : Option (Block entry)
  unnamed : ∀ name ∈ sectionNames, name ∉ top.entries.map Prod.fst

namespace Sheet

variable {α β : Type} {entry : β → Text × α} {o : Overlay}

/-- The sections give an overlay. -/
def Assigns (s : Sheet entry) (m : Meaning α) (o : Overlay) : Prop :=
  m.Assigns ((s.drill.map (·.entries)).getD []) ((s.output.map (·.entries)).getD []) o

/-- The keys and values of a document, whose sections are its last values. -/
def entries (s : Sheet entry) (table : List (Text × α) → α) : List (Text × α) :=
  s.top.entries ++ ((s.drill.map fun b => ("drill".toList, table b.entries)).toList ++
    (s.output.map fun b => ("output".toList, table b.entries)).toList)

variable (s : Sheet entry) (table : List (Text × α) → α)

theorem lookup_drill : (s.entries table).lookup "drill".toList =
    s.drill.map fun b => table b.entries := by
  rw [entries, List.lookup_append,
    lookup_eq_none_of_notMem (s.unnamed "drill".toList (by decide)), Option.none_or]
  cases s.drill <;> cases s.output <;> rfl

theorem lookup_output : (s.entries table).lookup "output".toList =
    s.output.map fun b => table b.entries := by
  rw [entries, List.lookup_append,
    lookup_eq_none_of_notMem (s.unnamed "output".toList (by decide)), Option.none_or]
  cases s.drill <;> cases s.output <;> rfl

theorem distinct_entries : ((s.entries table).map Prod.fst).Nodup := by
  have names : (((s.drill.map fun b => ("drill".toList, table b.entries)).toList ++
      (s.output.map fun b => ("output".toList, table b.entries)).toList).map Prod.fst).Sublist
        sectionNames := by
    cases s.drill <;> cases s.output <;> simp [sectionNames]
  rw [entries, List.map_append]
  refine List.Nodup.append s.top.distinct (names.nodup (by decide)) fun k hk hk' => ?_
  exact s.unnamed k (names.subset hk') hk

/-- A document with the entries of a sheet gives what its sections give. -/
theorem gives {m : Meaning α} {table : List (Text × α) → α} {document : α}
    (ht : ∀ es, (es.map Prod.fst).Nodup → m.table (table es) es)
    (hd : m.table document (s.entries table)) (h : s.Assigns m o) : m.Gives document o := by
  have tables (b : Option (Block entry)) :
      Option.Rel m.table (b.map fun b => table b.entries) (b.map (·.entries)) := by
    cases b with
    | none => exact .none
    | some b => exact .some (ht _ b.distinct)
  exact .intro hd (s.lookup_drill table ▸ tables s.drill) (s.lookup_output table ▸ tables s.output)
    h

end Sheet

/-! ## The texts of sheets -/

/-- Numbers as JSON writes them are numbers of TOML as well, with the same value, if they have a
point or an exponent or are whole numbers of 64 bits with a sign. -/
theorem Toml.exists_writes_text {n : Json.Numeral} {x : Binary64} (h : n.Proper) (means : n.Means x)
    (held : n.fraction.isSome ∨ n.exponent.isSome ∨
      ∃ i, n.toInt? = some i ∧ i ≤ Toml.greatestInteger) :
    ∃ v, Toml.Writes n.text v ∧ Toml.meaning.number v x := by
  rcases held with point | exponent | ⟨i, hi, few⟩
  · exact ⟨_, Toml.writes_numeral h (.inl point) means, .inl rfl⟩
  · exact ⟨_, Toml.writes_numeral h (.inr exponent) means, .inl rfl⟩
  · exact ⟨_, Toml.writes_whole h hi few, .inr ⟨i, rfl, means.ofInt_eq hi⟩⟩

/-- The key and the value of a member. -/
def Json.Member.keyed (m : Json.Member) : Text × Json.Value := (m.key.toList, m.value)

namespace Sheet

variable {o : Overlay}

section

variable (s : Sheet Json.Member.keyed)

/-- The members of a JSON document. -/
def members : List Json.Member :=
  s.top.items ++ ((s.drill.map fun b => Json.Member.ofObject 1 "drill" b.items).toList ++
    (s.output.map fun b => Json.Member.ofObject 1 "output" b.items).toList)

/-- The JSON document of a sheet: a line for each member. -/
def json : Text := Json.prettyObject 0 (s.members.map fun m => (m.key, m.text))

theorem object_entries :
    Json.object (s.entries Json.object) = .object (s.members.map (·.entry)) := by
  obtain ⟨top, drill, output, unnamed⟩ := s
  cases drill <;> cases output <;>
    simp [Json.object, entries, members, Block.entries, Json.Member.ofObject, Json.Member.entry,
      Json.Member.keyed, Function.comp_def]

theorem parse_json : Json.parse s.json = some (Json.object (s.entries Json.object)) := by
  rw [object_entries]
  exact Json.parse_of_writes (Json.writes_members 0 s.members)

theorem gives_json (h : s.Assigns Json.meaning o) : Format.Gives .json s.json o :=
  ⟨_, s.parse_json,
    s.gives (fun _ distinct => ⟨rfl, distinct⟩) ⟨rfl, s.distinct_entries Json.object⟩ h⟩

theorem sectionEntries_object :
    (Json.object (s.entries Json.object)).sectionEntries "drill".toList =
      (s.drill.map (·.entries)).getD [] := by
  rw [Json.Value.sectionEntries, Json.entries_object, s.lookup_drill]
  cases s.drill with
  | none => rfl
  | some b => exact Json.entries_object _

/-- The figures of a JSON document are numbers in its first section. -/
theorem exists_of_isFigure {n : Json.Numeral}
    (h : Json.IsFigure (Json.object (s.entries Json.object)) n) :
    ∃ b ∈ s.drill, ∃ m ∈ b.items, m.value = .number n := by
  obtain ⟨k, -, found⟩ := h
  rw [sectionEntries_object] at found
  cases hd : s.drill with
  | none =>
    rw [hd] at found
    cases found
  | some b =>
    rw [hd, Option.map_some, Option.getD_some] at found
    obtain ⟨before, after, split, -⟩ := List.lookup_eq_some_iff.1 found
    have member : (k, Json.Value.number n) ∈ b.entries := by simp [split]
    obtain ⟨m, hm, same⟩ := List.mem_map.1 member
    exact ⟨b, rfl, m, hm, congrArg Prod.snd same⟩

end

section

variable (s : Sheet Toml.Line.entry)

/-- The sections of a TOML document. -/
def headings : List Toml.Heading :=
  (s.drill.map fun b => ⟨"drill", b.items, ⟨by decide, by decide⟩, b.distinct⟩).toList ++
    (s.output.map fun b => ⟨"output", b.items, ⟨by decide, by decide⟩, b.distinct⟩).toList

/-- The TOML document of a sheet: a line for each key, and headers. -/
def toml : Text := Toml.document s.top.items s.headings

theorem entries_table : s.entries (.table .header ·) =
    s.top.items.map (·.entry) ++ s.headings.map (·.entry) := by
  obtain ⟨top, drill, output, unnamed⟩ := s
  cases drill <;> cases output <;> simp [entries, headings, Block.entries, Toml.Heading.entry]

theorem gives_toml (h : s.Assigns Toml.meaning o) : Format.Gives .toml s.toml o := by
  have distinct := s.distinct_entries (.table .header ·)
  refine ⟨s.entries (.table .header ·), ?_, ?_⟩
  · rw [entries_table] at distinct ⊢
    exact Toml.parse_document distinct
  · exact s.gives (fun es distinct => ⟨⟨.header, rfl⟩, distinct⟩) ⟨⟨.header, rfl⟩, distinct⟩ h

end

end Sheet

namespace Settings

theorem given_of_gives {d : Disk} {p : Path} {format : Format} {t : Text} {o : Overlay}
    (hf : Format.ofPath p = some format) (hr : d.read p = .ok (Utf8.encode t))
    (h : format.Gives t o) : Given d p o :=
  ⟨format, t, hf, readText_eq_ok_iff.2 ⟨_, hr, Utf8.decode_encode t⟩, h⟩

/-- A JSON document with short numbers is read exactly. -/
theorem exact_json {d : Disk} {p : Path} {s : Sheet Json.Member.keyed}
    (hr : d.read p = .ok (Utf8.encode s.json))
    (h : ∀ b ∈ s.drill, ∀ m ∈ b.items, ∀ n, m.value = .number n → n.IsShort) : Exact d p := by
  refine exact_of_isShort fun t v n ht hv figure => ?_
  obtain rfl : s.json = t := by
    rw [readText_eq_ok_iff.2 ⟨_, hr, Utf8.decode_encode s.json⟩] at ht
    exact Except.ok.inj ht
  obtain rfl := Option.some.inj (s.parse_json.symm.trans hv)
  obtain ⟨b, hb, m, hm, value⟩ := s.exists_of_isFigure figure
  exact h b hb m hm n value

/-- **A file that gives some settings** takes the others from the defaults. What comes of that is
loaded when it is admissible, and otherwise the first condition that it violates is named, exactly
as long as the numbers of the file are read as what they stand for. Whatever the formats of two
files and whatever else they hold, the outcome is the same then when they give the same settings.
Numbers of TOML are always read as what they stand for, and so are short numbers of JSON.

A JSON document and a TOML document give what their sections assign, with any keys that name no
setting among the others and outside the sections, and with sections missing or empty. A number can
be written in both formats, where it stands for the double nearest to its decimal value, and every
text can be a key. -/
theorem load_partial (o : Overlay) :
    (∀ d p, Given d p o → Outcome d p o) ∧
    (∀ d p d' p', Given d p o → Given d' p' o → Exact d p → Exact d' p' → load p d = load p' d') ∧
    (∀ d p, Format.ofPath p = some .toml → Exact d p) ∧
    (∀ d p, (∀ t v n, readText p d = .ok t → Json.parse t = some v → Json.IsFigure v n →
      n.IsShort) → Exact d p) ∧
    (∀ s : Sheet Json.Member.keyed, s.Assigns Json.meaning o → ∀ d p,
      Format.ofPath p = some .json → d.read p = .ok (Utf8.encode s.json) → Given d p o ∧
        ((∀ b ∈ s.drill, ∀ m ∈ b.items, ∀ n, m.value = .number n → n.IsShort) → Exact d p)) ∧
    (∀ s : Sheet Toml.Line.entry, s.Assigns Toml.meaning o → ∀ d p,
      Format.ofPath p = some .toml → d.read p = .ok (Utf8.encode s.toml) → Given d p o) ∧
    (∀ (n : Json.Numeral) x, n.Proper → n.Means x →
      Json.Writes n.text (.number n) ∧ Json.meaning.number (.number n) x ∧
        ((n.fraction.isSome ∨ n.exponent.isSome ∨
            ∃ i, n.toInt? = some i ∧ i ≤ Toml.greatestInteger) →
          ∃ v, Toml.Writes n.text v ∧ Toml.meaning.number v x)) ∧
    ∀ k : Text, ∃ name : String, Toml.Spells name.toList k := by
  refine ⟨fun d p h => h.outcome, fun d p d' p' h h' exact exact' => ?_, fun d p => exact_of_toml,
    fun d p => exact_of_isShort,
    fun s h d p hf hr => ⟨given_of_gives hf hr (s.gives_json h), exact_json hr⟩,
    fun s h d p hf hr => given_of_gives hf hr (s.gives_toml h), fun n x proper means => ?_,
    Toml.exists_spells⟩
  · rw [(h.taken_iff.2 exact).load_eq, (h'.taken_iff.2 exact').load_eq]
  · exact ⟨Json.writes_text proper, ⟨n, rfl, means⟩, Toml.exists_writes_text proper means⟩

/-- A feed height above the default safe height is refused, in a JSON document with an empty section
and in a TOML document without that section, each with a key that names no setting. -/
theorem load_partial_clash :
    let json := "\x7b\n  \"note\": null,\n  \"drill\": \x7b\n    \"feed_z\": 2\n  \x7d,\n" ++
      "  \"output\": \x7b\n\n  \x7d\n\x7d"
    let toml := "[drill]\nhue = true\nfeed_z = 2\n"
    let d : Disk :=
      { entries := [(["a.json"], .file (Utf8.encode json.toList)),
          (["a.toml"], .file (Utf8.encode toml.toList))] }
    load ⟨"a.json"⟩ d = .error (.invalid "drill.safe_z" "must not be below drill.feed_z") ∧
      load ⟨"a.toml"⟩ d = load ⟨"a.json"⟩ d := by
  intro json toml d
  obtain ⟨outcome, same, ofToml, -, inJson, inToml, -⟩ :=
    load_partial { feedHeight := some (.ofInt 2) }
  have two : (Json.naturalOf 2).Means (.ofInt 2) :=
    Json.Numeral.means_of_ofDecimal_eq (by decide +kernel) (by decide +kernel)
  let jsonSheet : Sheet Json.Member.keyed :=
    { top := ⟨[⟨"note", _, _, Json.writes_null⟩], by decide⟩
      drill := some ⟨[⟨"feed_z", _, _, Json.writes_digits 2⟩], by decide⟩
      output := some ⟨[], by decide⟩
      unnamed := by decide }
  let tomlSheet : Sheet Toml.Line.entry :=
    { top := ⟨[], by decide⟩
      drill := some
        ⟨[⟨"hue", _, _, _, Toml.BareKey.spells ⟨by decide, by decide⟩,
            (Toml.writes_boolean true).fillsLine⟩,
          ⟨"feed_z", _, _, _, Toml.BareKey.spells ⟨by decide, by decide⟩,
            (Toml.writes_integer (n := 2) (by decide)).fillsLine⟩], by decide⟩
      output := none
      unnamed := by decide }
  have jsonText : json.toList = jsonSheet.json := by decide +kernel
  have tomlText : toml.toList = tomlSheet.toml := by decide +kernel
  have inFirst := inJson jsonSheet ⟨.none, .none, .none, .some ⟨_, rfl, two⟩, .none, .none, .none⟩ d
    ⟨"a.json"⟩ rfl (jsonText ▸ rfl)
  have short : (Json.naturalOf 2).IsShort := ⟨by decide, by decide, by rintro below ds ⟨⟩⟩
  have exact : Exact d ⟨"a.json"⟩ := by
    refine inFirst.2 ?_
    rintro b ⟨⟩ m hm n value
    obtain rfl := List.mem_singleton.1 hm
    cases value
    exact short
  have second : Given d ⟨"a.toml"⟩ _ :=
    inToml tomlSheet ⟨.none, .none, .none, .some (.inr ⟨2, rfl, rfl⟩), .none, .none, .none⟩ d _ rfl
      (tomlText ▸ rfl)
  refine ⟨(outcome d _ inFirst.1).refused exact .safeBelowFeed ?_,
    same _ _ _ _ second inFirst.1 (ofToml d _ rfl) exact⟩
  exact violation_eq_some_iff.1 (by decide +kernel)

/-- A number of 17 digits. -/
def longNumeral : Json.Numeral :=
  { negative := false, whole := "123".toList, fraction := some "45678901234567".toList }

/-- The feed rate that it stands for. -/
def longFeed : Overlay := { feedRate := some (.ofDecimal false ⟨12345678901234567, -14⟩) }

/-- Not all admissible settings that a file gives are loaded from it. -/
theorem not_load_partial_longRate :
    ¬ ∀ (o : Overlay) (d : Disk) (p : Path), Given d p o → (o.apply {}).Admissible →
      ∃ t, load p d = .ok t ∧ (o.apply {}).agrees t = true := by
  intro h
  have proper : longNumeral.Proper := by
    have whole : longNumeral.whole.all isDigit = true := by decide
    have fraction : ("45678901234567".toList : Text).all isDigit = true := by decide
    refine ⟨⟨by decide, List.all_eq_true.1 whole⟩, by decide, ?_, by rintro below ds ⟨⟩⟩
    rintro ds ⟨⟩
    exact ⟨by decide, List.all_eq_true.1 fraction⟩
  have means : longNumeral.Means (.ofDecimal false ⟨12345678901234567, -14⟩) :=
    Json.Numeral.means_of_ofDecimal_eq (by decide +kernel) (by decide +kernel)
  let sheet : Sheet Json.Member.keyed :=
    { top := ⟨[], by decide⟩
      drill := some ⟨[⟨"feed_rate", _, _, Json.writes_text proper⟩], List.nodup_singleton _⟩
      output := none
      unnamed := by decide }
  let d : Disk := { entries := [(["c.json"], .file (Utf8.encode sheet.json))] }
  have drill : (sheet.drill.map (·.entries)).getD [] =
      [("feed_rate".toList, .number longNumeral)] := rfl
  have assigns : sheet.Assigns Json.meaning longFeed := by
    rw [Sheet.Assigns, drill]
    exact ⟨.none, .some ⟨longNumeral, rfl, means⟩, .none, .none, .none, .none, .none⟩
  have given : Given d ⟨"c.json"⟩ longFeed := given_of_gives rfl rfl (sheet.gives_json assigns)
  have admissible : (longFeed.apply {}).Admissible := check_eq_ok_iff.1 (by decide +kernel)
  obtain ⟨-, exact⟩ := given.outcome.exact.1 (h _ d _ given admissible)
  have text : readText ⟨"c.json"⟩ d = .ok sheet.json :=
    readText_eq_ok_iff.2 ⟨_, rfl, Utf8.decode_encode _⟩
  have kept : longNumeral.IsKept := by
    refine exact .json _ rfl text _ _ sheet.parse_json ⟨"feed_rate".toList, by decide, ?_⟩
    rw [sheet.sectionEntries_object, drill]
    rfl
  exact absurd (kept _ means) (by decide +kernel)

end Settings

end DrillPost
