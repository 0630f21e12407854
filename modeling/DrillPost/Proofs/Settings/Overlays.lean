import DrillPost.Proofs.Json.Numerals
import DrillPost.Settings.Json
import DrillPost.Settings.Toml
import Mathlib.Data.List.Nodup

/-!
# What a document gives

A document gives settings by name, in two sections. Which setting a value is depends on the format
alone, so what a document gives can be said without its reader: what stands under a name is the
setting of that name, and a name that is not there gives nothing. Sections may be missing or empty,
and keys that name no setting may be there, with any values.

A number that is written in a JSON document stands for the double nearest to its decimal value. The
two roundings of the reader may come to another one, so the overlay that a document is read as is
the one that it gives exactly if they do not for any of its figures.

* `Meaning`: what the values of a format stand for (`Json.meaning`, `Toml.meaning`);
* `Meaning.Gives`: a document gives an overlay (`Meaning.Assigns`: two sections do);
* `Readings.Respects`: values are read as what they stand for (`Json.respects_taken`,
  `Toml.respects`), and `Readings.Respects.overlay_eq`: what a document is read as then;
* `Json.taken`, `Json.IsFigure`: what JSON numbers are taken for, and the numbers of settings;
* `Json.gives_taken_iff`, `Json.exists_gives_taken_or`, `Json.gives_taken_of_agrees`: how what a
  JSON document is taken for differs from what it gives.
-/

namespace DrillPost

open Number

/-! ## What values stand for -/

/-- What the values of a format stand for. -/
structure Meaning (α : Type) where
  /-- A table: its keys, none of which is there twice, and their values. -/
  table : α → List (Text × α) → Prop
  natural : α → Nat → Prop
  number : α → Binary64 → Prop
  boolean : α → Bool → Prop
  /-- A precision of 64 bits, or the absence of one. -/
  precision : α → Option Nat → Prop

namespace Meaning

variable {α : Type} (m : Meaning α)

/-- The entries of two sections give an overlay: each name that it has a setting for is there with a
value that stands for the setting, and the other names are not there. -/
structure Assigns (drill output : List (Text × α)) (o : Overlay) : Prop where
  spindleSpeed : Option.Rel (fun v (turns : UInt32) => m.natural v turns.toNat)
    (drill.lookup "spindle_speed".toList) o.spindleSpeed
  feedRate : Option.Rel m.number (drill.lookup "feed_rate".toList) o.feedRate
  safeHeight : Option.Rel m.number (drill.lookup "safe_z".toList) o.safeHeight
  feedHeight : Option.Rel m.number (drill.lookup "feed_z".toList) o.feedHeight
  bottomHeight : Option.Rel m.number (drill.lookup "hole_bottom_z".toList) o.bottomHeight
  precision : Option.Rel m.precision (output.lookup "coordinate_precision".toList) o.precision
  strict : Option.Rel m.boolean (output.lookup "strict".toList) o.strict

/-- A document gives an overlay: it is a table, and what its sections hold gives the overlay, where
a section that is missing holds nothing. -/
inductive Gives (document : α) (o : Overlay) : Prop
  | intro {entries : List (Text × α)} {drill output : Option (List (Text × α))}
      (top : m.table document entries)
      (hd : Option.Rel m.table (entries.lookup "drill".toList) drill)
      (ho : Option.Rel m.table (entries.lookup "output".toList) output)
      (assigns : m.Assigns (drill.getD []) (output.getD []) o)

end Meaning

namespace Readings

variable {α ε : Type}

/-- Values are read as what they stand for, numbers excepted. -/
structure RespectsOthers (r : Readings α ε) (m : Meaning α) : Prop where
  table : ∀ {v entries}, m.table v entries → ∀ names, r.sectionOf names v = .ok (.named entries)
  natural : ∀ {v n bound}, m.natural v n → n < bound → bound ≤ UInt64.size →
    r.natural bound v = .ok n
  boolean : ∀ {v b}, m.boolean v b → r.boolean v = .ok b
  precision : ∀ {v places}, m.precision v places → r.precision v = .ok places

/-- Values are read as what they stand for. -/
structure Respects (r : Readings α ε) (m : Meaning α) : Prop extends RespectsOthers r m where
  number : ∀ {v x}, m.number v x → r.number v = .ok x

theorem optional_of_rel {β γ : Type} {stands : α → γ → Prop} {read : α → Except ε β} {f : γ → β}
    {v : Option α} {c : Option γ} (hr : Option.Rel stands v c)
    (h : ∀ v c, stands v c → read v = .ok (f c)) : optional read v = .ok (c.map f) := by
  cases hr with
  | none => rfl
  | some hs =>
    rw [optional, h _ _ hs]
    rfl

theorem optional_eq {β : Type} {stands : α → β → Prop} {read : α → Except ε β}
    {v : Option α} {b : Option β} (hr : Option.Rel stands v b)
    (h : ∀ v b, stands v b → read v = .ok b) : optional read v = .ok b :=
  (optional_of_rel hr h).trans (congrArg Except.ok Option.map_id')

theorem ok_bind {β γ : Type} (b : β) (f : β → Except ε γ) : (Except.ok b >>= f) = f b := rfl

variable {r : Readings α ε} {m : Meaning α} {document : α} {o : Overlay}

/-- Where only numbers may be read as something else, the first fault is that of a number. -/
theorem RespectsOthers.overlay_eq (h : r.RespectsOthers m) {entries : List (Text × α)}
    {drill output : Option (List (Text × α))} (top : m.table document entries)
    (hd : Option.Rel m.table (entries.lookup "drill".toList) drill)
    (ho : Option.Rel m.table (entries.lookup "output".toList) output)
    (assigns : m.Assigns (drill.getD []) (output.getD []) o) :
    r.overlay document = do
      let feedRate ← optional r.number ((drill.getD []).lookup "feed_rate".toList)
      let safeHeight ← optional r.number ((drill.getD []).lookup "safe_z".toList)
      let feedHeight ← optional r.number ((drill.getD []).lookup "feed_z".toList)
      let bottomHeight ← optional r.number ((drill.getD []).lookup "hole_bottom_z".toList)
      return { o with feedRate, safeHeight, feedHeight, bottomHeight } := by
  have root := h.table top sectionNames
  have drilling := optional_of_rel hd fun _ _ hs => h.table hs drillingNames
  have writing := optional_of_rel ho fun _ _ hs => h.table hs outputNames
  have speed := optional_of_rel assigns.spindleSpeed fun _ turns hs =>
    h.natural hs turns.toNat_lt_size (by decide)
  have precision := optional_eq assigns.precision fun _ _ => h.precision
  have strict := optional_eq assigns.strict fun _ _ => h.boolean
  simp only [overlay, root, ok_bind, Section.field?, drilling, writing, Option.getD_map, speed,
    precision, strict, Option.map_map]
  simp [Function.comp_def]

/-- **A document is read as the overlay that it gives.** -/
theorem Respects.overlay_eq (h : r.Respects m) (hg : m.Gives document o) :
    r.overlay document = .ok o := by
  obtain ⟨top, hd, ho, assigns⟩ := hg
  have numbers {v : Option α} {x : Option Binary64} (hv : Option.Rel m.number v x) :
      optional r.number v = .ok x := optional_eq hv fun _ _ => h.number
  rw [h.toRespectsOthers.overlay_eq top hd ho assigns, numbers assigns.feedRate,
    numbers assigns.safeHeight, numbers assigns.feedHeight, numbers assigns.bottomHeight]
  rfl

end Readings

/-! ## The two formats -/

namespace Json

/-- The object with given keys and values. -/
def object (entries : List (Text × Value)) : Value := .object (entries.map fun e => (some e.1, e.2))

/-- What JSON values stand for. -/
def meaning : Meaning Value where
  table v entries := v = object entries ∧ (entries.map Prod.fst).Nodup
  natural v n := ∃ x, v = .number x ∧ x.Counts n
  number v x := ∃ n, v = .number n ∧ n.Means x
  boolean v b := v = .boolean b
  precision v places := v = .null ∧ places = none ∨
    ∃ x n, v = .number x ∧ x.Counts n ∧ n < UInt64.size ∧ places = some n

/-- What JSON values are taken for: a number for what its two roundings come to. -/
def taken : Meaning Value :=
  { meaning with number := fun v x => ∃ n, v = .number n ∧ n.toBinary64? = some x }

theorem entriesOf_eq {entries : List (Text × Value)} (distinct : (entries.map Prod.fst).Nodup)
    (names : List Text) :
    entriesOf names (entries.map fun e => (some e.1, e.2)) = .ok entries := by
  have keyed : (entries.map fun e => (some e.1, e.2)).mapM
      (fun e => e.1.map fun k => (k, e.2)) = some entries := by
    induction entries with
    | nil => rfl
    | cons e entries ih =>
      rw [List.map_cons, List.mapM_cons, ih (List.nodup_cons.1 distinct).2]
      rfl
  have once (k : Text) : (entries.filter (·.1 == k)).length ≤ 1 := by
    rw [← List.countP_eq_length_filter]
    have count := List.nodup_iff_count_le_one.1 distinct k
    rwa [List.count, List.countP_map] at count
  unfold entriesOf
  split
  · rename_i missing
    cases missing.symm.trans keyed
  · rename_i found all
    obtain rfl : found = entries := Option.some.inj (all.symm.trans keyed)
    split
    · rename_i k repeated
      have twice := List.find?_some repeated
      simp only [decide_eq_true_eq] at twice
      exact absurd twice (Nat.not_lt.2 (once k))
    · rfl

theorem natural_eq {x : Numeral} {n bound : Nat} (h : x.Counts n) (hn : n < bound)
    (hb : bound ≤ UInt64.size) : natural bound (.number x) = .ok n := by
  have few : n ≤ Numeral.greatest := Nat.le_of_lt_succ (hn.trans_le hb)
  simp [natural, h.toInt?_eq few, hn]

theorem respectsOthers : readings.RespectsOthers meaning where
  table := by
    rintro _ entries ⟨rfl, distinct⟩ names
    exact congrArg (Except.map Section.named) (entriesOf_eq distinct names)
  natural := by
    rintro _ n bound ⟨x, rfl, hx⟩ hn hb
    exact natural_eq hx hn hb
  boolean := by
    rintro _ b rfl
    rfl
  precision := by
    rintro _ _ (⟨rfl, rfl⟩ | ⟨x, n, rfl, hx, hn, rfl⟩)
    · rfl
    · exact congrArg (Except.map some) (natural_eq hx hn le_rfl)

theorem respects_taken : readings.Respects taken where
  table := respectsOthers.table
  natural := respectsOthers.natural
  boolean := respectsOthers.boolean
  precision := respectsOthers.precision
  number := by
    rintro _ x ⟨n, rfl, hn⟩
    simp [readings, float, hn]

/-! ### Figures -/

/-- The names of the settings that are numbers. -/
def numberNames : List Text :=
  ["feed_rate".toList, "safe_z".toList, "feed_z".toList, "hole_bottom_z".toList]

/-- What an object holds under keys that are texts. -/
def Value.entries : Value → List (Text × Value)
  | .object members => members.filterMap fun (k, v) => k.map fun k => (k, v)
  | _ => []

/-- What a section of a document holds. -/
def Value.sectionEntries (v : Value) (name : Text) : List (Text × Value) :=
  (v.entries.lookup name).elim [] Value.entries

/-- The figures of a document: the numbers that stand for settings. -/
def IsFigure (v : Value) (n : Numeral) : Prop :=
  ∃ k ∈ numberNames, (v.sectionEntries "drill".toList).lookup k = some (.number n)

theorem entries_object (es : List (Text × Value)) : (object es).entries = es := by
  simp [object, Value.entries, List.filterMap_map]

theorem sectionEntries_eq {v : Value} {es : List (Text × Value)} (top : meaning.table v es)
    {name : Text} {inside : Option (List (Text × Value))}
    (h : Option.Rel meaning.table (es.lookup name) inside) :
    v.sectionEntries name = inside.getD [] := by
  obtain ⟨rfl, -⟩ := top
  rw [Value.sectionEntries, entries_object]
  generalize es.lookup name = found at h
  cases h with
  | none => rfl
  | some hs =>
    obtain ⟨rfl, -⟩ := hs
    exact entries_object _

section

variable {v : Option Value} {x y : Option Binary64}

theorem toBinary64?_of_taken {n : Numeral} {x : Binary64} (h : taken.number (.number n) x) :
    n.toBinary64? = some x := by
  obtain ⟨m, same, rounded⟩ := h
  cases same
  exact rounded

/-- A number is taken for what it stands for exactly if its two roundings come to the same as
one. -/
theorem rel_taken_iff (h : Option.Rel meaning.number v x) :
    Option.Rel taken.number v x ↔ ∀ n, v = some (.number n) → n.IsKept := by
  cases h with
  | none =>
    refine iff_of_true .none ?_
    rintro n ⟨⟩
  | some hs =>
    obtain ⟨n, rfl, means⟩ := hs
    constructor
    · intro ht m hm y hy
      cases hm
      cases ht with
      | some ht => rw [hy.unique means, toBinary64?_of_taken ht]
    · intro kept
      exact .some ⟨n, rfl, kept n rfl _ means⟩

theorem exists_taken_or (h : Option.Rel meaning.number v x) :
    (∃ y, Option.Rel taken.number v y) ∨
      Readings.optional readings.number v = .error .mismatch := by
  cases h with
  | none => exact .inl ⟨none, .none⟩
  | some hs =>
    obtain ⟨n, rfl, -⟩ := hs
    cases rounded : n.toBinary64? with
    | some y => exact .inl ⟨some y, .some ⟨n, rfl, rounded⟩⟩
    | none =>
      right
      simp [Readings.optional, readings, float, rounded]
      rfl

/-- What a number is taken for has its sign, so it is what the number stands for if they are
equal. -/
theorem rel_taken_of_agrees (hx : Option.Rel meaning.number v x)
    (hy : Option.Rel taken.number v y) {default : Binary64}
    (ha : (x.getD default).agrees (y.getD default) = true) : Option.Rel taken.number v x := by
  cases hx with
  | none => exact .none
  | some hs =>
    obtain ⟨n, rfl, m, rfl, -⟩ := hs
    cases hy with
    | some hy =>
      have rounded := toBinary64?_of_taken hy
      obtain ⟨k, rfl⟩ := Numeral.exists_of_toBinary64?_eq_some rounded
      rw [Option.getD_some, Option.getD_some, Binary64.agrees_iff_units_eq rfl rfl] at ha
      have units : m.units = k.units := by
        cases hn : n.negative <;> simpa [hn, Binary64.units] using ha
      exact .some ⟨n, rfl, Magnitude.units_injective units ▸ rounded⟩

end

section

variable {v : Value} {o o' : Overlay}

theorem assigns_of_gives (h : meaning.Gives v o) :
    meaning.Assigns (v.sectionEntries "drill".toList) (v.sectionEntries "output".toList) o := by
  obtain ⟨top, hd, ho, assigns⟩ := h
  rwa [sectionEntries_eq top hd, sectionEntries_eq top ho]

theorem assigns_of_gives_taken (h : taken.Gives v o) :
    taken.Assigns (v.sectionEntries "drill".toList) (v.sectionEntries "output".toList) o := by
  obtain ⟨top, hd, ho, assigns⟩ := h
  rwa [sectionEntries_eq top hd, sectionEntries_eq top ho]

theorem gives_taken_of_assigns (h : meaning.Gives v o)
    (ht : taken.Assigns (v.sectionEntries "drill".toList) (v.sectionEntries "output".toList) o') :
    taken.Gives v o' := by
  obtain ⟨top, hd, ho, -⟩ := h
  rw [sectionEntries_eq top hd, sectionEntries_eq top ho] at ht
  exact ⟨top, hd, ho, ht⟩

/-- **A document is taken for what it gives** exactly if this holds of all its figures. -/
theorem gives_taken_iff (h : meaning.Gives v o) :
    taken.Gives v o ↔ ∀ n, IsFigure v n → n.IsKept := by
  have assigns := assigns_of_gives h
  have figures : (∀ n, IsFigure v n → n.IsKept) ↔ ∀ k ∈ numberNames, ∀ n,
      (v.sectionEntries "drill".toList).lookup k = some (.number n) → n.IsKept :=
    ⟨fun kept k hk n hn => kept n ⟨k, hk, hn⟩, fun kept n ⟨k, hk, hn⟩ => kept k hk n hn⟩
  rw [figures]
  simp only [numberNames, List.forall_mem_cons, List.not_mem_nil, false_imp_iff, implies_true,
    and_true, ← rel_taken_iff assigns.feedRate, ← rel_taken_iff assigns.safeHeight,
    ← rel_taken_iff assigns.feedHeight, ← rel_taken_iff assigns.bottomHeight]
  constructor
  · intro ht
    have numbers := assigns_of_gives_taken ht
    exact ⟨numbers.feedRate, numbers.safeHeight, numbers.feedHeight, numbers.bottomHeight⟩
  · rintro ⟨rate, safe, feed, bottom⟩
    exact gives_taken_of_assigns h { assigns with
      feedRate := rate, safeHeight := safe, feedHeight := feed, bottomHeight := bottom }

/-- Two roundings may come to a number beyond the greatest double, and then the document is
refused. -/
theorem exists_gives_taken_or (h : meaning.Gives v o) :
    (∃ o', taken.Gives v o') ∨ readings.overlay v = .error .mismatch := by
  obtain ⟨top, hd, ho, assigns⟩ := h
  have number {v : Option Value} {y : Option Binary64} (hy : Option.Rel taken.number v y) :
      Readings.optional readings.number v = .ok y :=
    Readings.optional_eq hy fun _ _ => respects_taken.number
  rw [respectsOthers.overlay_eq top hd ho assigns]
  -- the first number that is none decides
  obtain ⟨a, rate⟩ | fault := exists_taken_or assigns.feedRate
  swap
  · right
    rw [fault]
    rfl
  obtain ⟨b, safe⟩ | fault := exists_taken_or assigns.safeHeight
  swap
  · right
    rw [number rate, fault]
    rfl
  obtain ⟨c, feed⟩ | fault := exists_taken_or assigns.feedHeight
  swap
  · right
    rw [number rate, number safe, fault]
    rfl
  obtain ⟨e, bottom⟩ | fault := exists_taken_or assigns.bottomHeight
  swap
  · right
    rw [number rate, number safe, number feed, fault]
    rfl
  exact .inl ⟨{ o with feedRate := a, safeHeight := b, feedHeight := c, bottomHeight := e },
    top, hd, ho, { assigns with
      feedRate := rate, safeHeight := safe, feedHeight := feed, bottomHeight := bottom }⟩

/-- A document that is taken for an overlay that leads to equal settings is taken for what it
gives. -/
theorem gives_taken_of_agrees (h : meaning.Gives v o) (ht : taken.Gives v o') {s : Settings}
    (ha : (o.apply s).agrees (o'.apply s) = true) : taken.Gives v o := by
  have assigns := assigns_of_gives h
  have numbers := assigns_of_gives_taken ht
  simp only [Settings.agrees, Overlay.apply, Bool.and_eq_true] at ha
  obtain ⟨⟨⟨⟨⟨-, rate⟩, safe⟩, feed⟩, bottom⟩, -⟩ := ha
  exact gives_taken_of_assigns h { assigns with
    feedRate := rel_taken_of_agrees assigns.feedRate numbers.feedRate rate
    safeHeight := rel_taken_of_agrees assigns.safeHeight numbers.safeHeight safe
    feedHeight := rel_taken_of_agrees assigns.feedHeight numbers.feedHeight feed
    bottomHeight := rel_taken_of_agrees assigns.bottomHeight numbers.bottomHeight bottom }

end

end Json

namespace Toml

/-- What TOML values stand for. A whole number may stand for a number as well. -/
def meaning : Meaning Value where
  table v entries := (∃ origin, v = .table origin entries) ∧ (entries.map Prod.fst).Nodup
  natural v n := v = .integer n
  number v x := v = .float x ∨ ∃ i, v = .integer i ∧ Binary64.ofInt i = x
  boolean v b := v = .boolean b
  precision v places := ∃ n : Nat, v = .integer n ∧ n < UInt64.size ∧ places = some n

theorem natural_eq {n bound : Nat} (h : n < bound) : natural bound (.integer n) = .ok n := by
  simp [natural, h]

theorem respects : readings.Respects meaning where
  table := by
    rintro _ entries ⟨⟨origin, rfl⟩, -⟩ names
    rfl
  natural := by
    rintro _ n bound rfl hn -
    exact natural_eq hn
  number := by
    rintro _ x (rfl | ⟨i, rfl, rfl⟩)
    · rfl
    · rfl
  boolean := by
    rintro _ b rfl
    rfl
  precision := by
    rintro _ _ ⟨n, rfl, hn, rfl⟩
    simp only [readings, natural_eq hn]
    rfl

end Toml

end DrillPost
