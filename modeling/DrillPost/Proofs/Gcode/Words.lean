import DrillPost.Gcode.Line
import DrillPost.Proofs.Number.Digits
import DrillPost.Proofs.Text.Separation

/-!
# The words of a block

A block is a row of words with one blank between each and the next. Its numbers are single words,
whatever the settings are, so cutting its text at the blanks gives these words back.

* `IsWord`: a text without blanks and line feeds (`isWord_coordinate`, `isWord_feedRate`);
* `Block.words`: the words of a block;
* `Block.text_eq_unwords`, `Block.splitOn_text`: the text of a block is made of them and taken apart
  into them.
-/

namespace DrillPost

open Number

/-! ## Words -/

/-- No blank and no line feed. -/
structure IsWord (t : Text) : Prop where
  blank : ' ' ∉ t
  lineFeed : '\n' ∉ t

namespace IsWord

theorem nil : IsWord [] := ⟨List.not_mem_nil, List.not_mem_nil⟩

theorem cons {c : Char} {t : Text} (hc : c ≠ ' ' ∧ c ≠ '\n') (h : IsWord t) : IsWord (c :: t) := by
  constructor
  · rw [List.mem_cons, not_or]
    exact ⟨hc.1.symm, h.blank⟩
  · rw [List.mem_cons, not_or]
    exact ⟨hc.2.symm, h.lineFeed⟩

theorem append {t u : Text} (h : IsWord t) (h' : IsWord u) : IsWord (t ++ u) := by
  constructor
  · rw [List.mem_append, not_or]
    exact ⟨h.blank, h'.blank⟩
  · rw [List.mem_append, not_or]
    exact ⟨h.lineFeed, h'.lineFeed⟩

theorem of_forall {t : Text} (h : ∀ c ∈ t, c ≠ ' ' ∧ c ≠ '\n') : IsWord t :=
  ⟨fun hm => (h _ hm).1 rfl, fun hm => (h _ hm).2 rfl⟩

instance (t : Text) : Decidable (IsWord t) :=
  decidable_of_iff (' ' ∉ t ∧ '\n' ∉ t) ⟨fun h => ⟨h.1, h.2⟩, fun h => ⟨h.1, h.2⟩⟩

end IsWord

/-- Words with a blank between each and the next. -/
def unwords (ws : List Text) : Text := [' '].intercalate ws

@[simp] theorem unwords_singleton (w : Text) : unwords [w] = w := by simp [unwords]

@[simp] theorem unwords_cons_cons (w v : Text) (ws : List Text) :
    unwords (w :: v :: ws) = w ++ ' ' :: unwords (v :: ws) := by
  simp [unwords, List.intercalate_cons_cons]

/-- Words are read back. -/
theorem splitOn_unwords {ws : List Text} (hne : ws ≠ []) (h : ∀ w ∈ ws, IsWord w) :
    splitOn ' ' (unwords ws) = ws := by
  induction ws with
  | nil => exact absurd rfl hne
  | cons w ws ih =>
    have hw : ' ' ∉ w := (h w List.mem_cons_self).blank
    cases ws with
    | nil => rw [unwords_singleton, splitOn_of_notMem hw]
    | cons v ws =>
      rw [unwords_cons_cons, splitOn_append_cons hw,
        ih (List.cons_ne_nil _ _) fun u hu => h u (List.mem_cons_of_mem w hu)]

theorem lineFeed_notMem_unwords {ws : List Text} (h : ∀ w ∈ ws, IsWord w) :
    '\n' ∉ unwords ws := by
  induction ws with
  | nil => simp [unwords]
  | cons w ws ih =>
    have hw : '\n' ∉ w := (h w List.mem_cons_self).lineFeed
    have hws := ih fun u hu => h u (List.mem_cons_of_mem w hu)
    cases ws with
    | nil => rwa [unwords_singleton]
    | cons v ws =>
      rw [unwords_cons_cons]
      simp [hw, hws]

/-! ## Numbers are words -/

namespace Number

theorem isDigit_ne {c : Char} (h : isDigit c = true) : c ≠ ' ' ∧ c ≠ '\n' := by
  constructor <;> rintro rfl <;> exact absurd h (by decide)

theorem isWord_digits (n : Nat) : IsWord (digits n) :=
  .of_forall fun _ hc => isDigit_ne (isDigit_of_mem_digits hc)

theorem isWord_pointed (n places : Nat) : IsWord (pointed n places) :=
  .of_forall fun c hc => by
    rcases mem_pointed hc with h | rfl
    · exact isDigit_ne h
    · decide

theorem writeDecimal_plain (d : Decimal) : Style.plain.writeDecimal d = d.positional := by
  simp [Style.writeDecimal, Style.isPositional, Style.plain]

theorem isWord_write_plain (x : Binary64) : IsWord (Style.plain.write x) := by
  cases x with
  | nan => decide
  | infinite negative => cases negative <;> decide
  | finite negative x =>
    simp only [Style.write, writeDecimal_plain]
    refine .append ?_ (isWord_pointed _ _)
    cases negative <;> decide

end Number

namespace Gcode

theorem isWord_magnitude (precision : Option Nat) (x : Magnitude) :
    IsWord (magnitude precision x) := by
  cases precision with
  | none =>
    rw [magnitude, writeDecimal_plain]
    exact isWord_pointed _ _
  | some places => exact isWord_pointed _ _

theorem isWord_coordinate (precision : Option Nat) (x : Binary64) :
    IsWord (coordinate precision x) := by
  cases x with
  | nan => exact isWord_write_plain .nan
  | infinite negative => exact isWord_write_plain (.infinite negative)
  | finite negative x =>
    simp only [coordinate]
    split
    · exact .cons (by decide) (isWord_magnitude precision x)
    · exact isWord_magnitude precision x

theorem isWord_feedRate (x : Binary64) : IsWord (feedRate x) := by
  cases x with
  | nan => exact isWord_write_plain .nan
  | infinite negative => exact isWord_write_plain (.infinite negative)
  | finite negative x =>
    simp only [feedRate]
    refine .append (isWord_write_plain _) ?_
    split <;> decide

/-! ## Blocks as words -/

/-- The words `X` and `Y` with a position. -/
def positionWords (precision : Option Nat) (x y : Int) : List Text :=
  ['X' :: coordinate precision (hundredThousandths x),
    'Y' :: coordinate precision (hundredThousandths y)]

/-- The words of a block. -/
def Block.words (precision : Option Nat) : Block → List Text
  | .preamble =>
    [['G', '9', '0'], ['G', '5', '4'], ['G', '6', '4'], ['G', '5', '0'], ['G', '1', '7'],
      ['G', '4', '0'], ['G', '8', '0'], ['G', '9', '4'], ['G', '9', '1', '.', '1'],
      ['G', '4', '9']]
  | .home => [['G', '3', '0']]
  | .goHome => [['G', '3', '0'], "(Go".toList, "Home)".toList]
  | .workOffset => [['G', '5', '4']]
  | .spindleStop => [['M', '5'], "(Spindle".toList, "Stop)".toList]
  | .coolantOff => [['M', '9'], "(Coolant".toList, "Off)".toList]
  | .programStop => [['M', '3', '0'], "(END)".toList]
  | .unit u => [u.word.toList, '(' :: u.label.toList ++ [')']]
  | .toolChange tool =>
    ['T' :: digits tool.toNat, ['G', '4', '3'], 'H' :: digits tool.toNat, ['M', '6'],
      "(Tool".toList, "Change)".toList]
  | .spindleStart speed =>
    ['S' :: digits speed.toNat, ['M', '3'], "(Spindle".toList, "Start)".toList]
  | .rapidTo x y => ['G', '0'] :: positionWords precision x y
  | .rapidHeight z => [['G', '0'], 'Z' :: coordinate precision z]
  | .drillCycle x y bottom retract feed =>
    ['G', '9', '8'] :: ['G', '8', '1'] :: positionWords precision x y ++
      ['Z' :: coordinate precision bottom, 'R' :: coordinate precision retract,
        'F' :: feedRate feed]
  | .hole x y => positionWords precision x y

namespace Block

variable (precision : Option Nat) (b : Block)

theorem words_ne_nil : b.words precision ≠ [] := by
  cases b <;> exact List.cons_ne_nil _ _

/-- **The text of a block is its words.** -/
theorem text_eq_unwords : b.text precision = unwords (b.words precision) := by
  -- numbers are variables in these equations, so that nothing looks into their digits
  have move (x y : Text) : 'X' :: x ++ ' ' :: 'Y' :: y = unwords ['X' :: x, 'Y' :: y] := by simp
  have rapid (x y : Text) :
      "G0 ".toList ++ ('X' :: x ++ ' ' :: 'Y' :: y) =
        unwords [['G', '0'], 'X' :: x, 'Y' :: y] := by simp
  have height (z : Text) : "G0 Z".toList ++ z = unwords [['G', '0'], 'Z' :: z] := by simp
  have cycle (x y z r f : Text) :
      "G98 G81 ".toList ++ ('X' :: x ++ ' ' :: 'Y' :: y) ++ " Z".toList ++ z ++ " R".toList ++ r ++
          " F".toList ++ f =
        unwords [['G', '9', '8'], ['G', '8', '1'], 'X' :: x, 'Y' :: y, 'Z' :: z, 'R' :: r,
          'F' :: f] := by simp
  have change (t : Text) :
      'T' :: t ++ " G43 H".toList ++ t ++ " M6 (Tool Change)".toList =
        unwords ['T' :: t, ['G', '4', '3'], 'H' :: t, ['M', '6'], "(Tool".toList,
          "Change)".toList] := by simp
  have start (s : Text) :
      'S' :: s ++ " M3 (Spindle Start)".toList =
        unwords ['S' :: s, ['M', '3'], "(Spindle".toList, "Start)".toList] := by simp
  cases b with
  | preamble | home | goHome | workOffset | spindleStop | coolantOff | programStop =>
    unfold text
    simp [words]
  | unit u =>
    unfold text
    cases u <;> simp [words, LengthUnit.word, LengthUnit.label]
  | toolChange tool => exact change _
  | spindleStart speed => exact start _
  | rapidTo x y => exact rapid _ _
  | rapidHeight z => exact height _
  | drillCycle x y bottom retract feed => exact cycle _ _ _ _ _
  | hole x y => exact move _ _

theorem isWord_of_mem_words : ∀ w ∈ b.words precision, IsWord w := by
  have number (c : Char) (hc : c ≠ ' ' ∧ c ≠ '\n') (z : Binary64) :
      IsWord (c :: coordinate precision z) := .cons hc (isWord_coordinate precision z)
  have count (c : Char) (hc : c ≠ ' ' ∧ c ≠ '\n') (n : Nat) : IsWord (c :: digits n) :=
    .cons hc (isWord_digits n)
  have feed (z : Binary64) : IsWord ('F' :: feedRate z) := .cons (by decide) (isWord_feedRate z)
  cases b with
  | preamble | home | goHome | workOffset | spindleStop | coolantOff | programStop =>
    simp only [words]
    decide
  | unit u => cases u <;> simp only [words] <;> decide
  | toolChange tool =>
    simp only [words, List.forall_mem_cons]
    exact ⟨count 'T' (by decide) _, by decide, count 'H' (by decide) _, by decide⟩
  | spindleStart speed =>
    simp only [words, List.forall_mem_cons]
    exact ⟨count 'S' (by decide) _, by decide⟩
  | rapidTo x y =>
    simp only [words, positionWords, List.forall_mem_cons]
    exact ⟨by decide, number 'X' (by decide) _, number 'Y' (by decide) _, by decide⟩
  | rapidHeight z =>
    simp only [words, List.forall_mem_cons]
    exact ⟨by decide, number 'Z' (by decide) _, by decide⟩
  | drillCycle x y bottom retract rate =>
    simp only [words, positionWords, List.cons_append, List.nil_append, List.forall_mem_cons]
    exact ⟨by decide, by decide, number 'X' (by decide) _, number 'Y' (by decide) _,
      number 'Z' (by decide) _, number 'R' (by decide) _, feed rate, by decide⟩
  | hole x y =>
    simp only [words, positionWords, List.forall_mem_cons]
    exact ⟨number 'X' (by decide) _, number 'Y' (by decide) _, by decide⟩

/-- Cutting the text of a block at the blanks gives its words. -/
theorem splitOn_text : splitOn ' ' (b.text precision) = b.words precision := by
  rw [text_eq_unwords, splitOn_unwords (words_ne_nil precision b)]
  exact isWord_of_mem_words precision b

theorem lineFeed_notMem_text : '\n' ∉ b.text precision := by
  rw [text_eq_unwords]
  exact lineFeed_notMem_unwords (isWord_of_mem_words precision b)

end Block

end Gcode

end DrillPost
