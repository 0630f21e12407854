import DrillPost.Proofs.Gcode.Number
import DrillPost.Proofs.Gcode.Numbering
import DrillPost.Proofs.Number.Length

/-!
# The grammar of blocks

What a controller may find behind the number of a line: one of a few fixed texts, a change of tools,
the start of the spindle, or a move. Numbers are rows of digits, with a point and more digits where
they are fractions; none has an exponent or a plus sign, and a minus sign stands only in front of
what is not zero.

* `IsUnsigned`, `IsSigned`: the numbers of coordinates and heights (`isSigned_coordinate`);
* `WritesRate`: the numbers of feed rates (`writesRate_feedRate`);
* `WellFormed`: the texts of blocks;
* `Block.Proper`: what must be true of a block for its text to be one of them
  (`Block.wellFormed_text`).
-/

namespace DrillPost.Gcode

open Number

/-! ## Numbers -/

/-- A number without a sign: digits, and a point with more digits behind it, if there is one. -/
inductive IsUnsigned : Text → Prop
  | whole {t : Text} (h : IsDigits t) : IsUnsigned t
  | fraction {t u : Text} (h : IsDigits t) (hu : IsDigits u) : IsUnsigned (t ++ '.' :: u)

/-- A number with a minus sign in front where it is less than zero. -/
inductive IsSigned : Text → Prop
  | plain {t : Text} (h : IsUnsigned t) : IsSigned t
  | minus {t : Text} {v : ℚ} (h : IsUnsigned t) (hv : decimalValue t = some v) (hn : v ≠ 0) :
      IsSigned ('-' :: t)

/-- A feed rate: digits, one point, and further digits, if there are any, which read back as the
rate. -/
inductive WritesRate (rate : Binary64) : Text → Prop
  | intro {whole fraction : Text} (h : IsDigits whole) (hf : ∀ c ∈ fraction, isDigit c = true)
      (back : Binary64.ofDecimal false ⟨digitsValue (whole ++ fraction), -fraction.length⟩ = rate) :
      WritesRate rate (whole ++ '.' :: fraction)

theorem isUnsigned_pointed (n places : Nat) : IsUnsigned (pointed n places) := by
  unfold pointed
  split_ifs
  · exact .whole (isDigits_digits n)
  · exact .fraction (isDigits_digits _) (isDigits_paddedDigits _ _)

theorem showsNonzero_pointed_zero (places : Nat) : showsNonzero (pointed 0 places) = false := by
  have zeros : ∀ c ∈ paddedDigits places 0, c = '0' := fun c hc => by
    rcases List.mem_append.1 hc with hc | hc
    · exact List.eq_of_mem_replicate hc
    · simpa [digits] using hc
  unfold pointed
  split_ifs
  · rfl
  · simp only [Nat.zero_div, Nat.zero_mod]
    refine List.any_eq_false.2 fun c hc => ?_
    rcases List.mem_append.1 hc with hc | hc
    · rw [show c = '0' by simpa [digits] using hc]
      decide
    · rcases List.mem_cons.1 hc with rfl | hc
      · decide
      · rw [zeros c hc]
        decide

/-- **Coordinates and heights** are written in the grammar of numbers. -/
theorem isSigned_coordinate (precision : Option Nat) {z : Binary64} (h : z.isFinite = true) :
    IsSigned (coordinate precision z) := by
  cases z with
  | nan => cases h
  | infinite negative => cases h
  | finite negative x =>
    obtain ⟨n, places, text, -⟩ := exists_magnitude_eq_pointed precision x
    simp only [coordinate, text]
    split_ifs with minus
    · rw [Bool.and_eq_true] at minus
      refine .minus (isUnsigned_pointed n places) (decimalValue_pointed n places) fun zero => ?_
      have none : n = 0 := by
        rw [div_eq_zero_iff] at zero
        exact_mod_cast zero.resolve_right (by positivity)
      rw [none, showsNonzero_pointed_zero] at minus
      exact Bool.false_ne_true minus.2
    · exact .plain (isUnsigned_pointed n places)

/-- A decimal of the value of a shortest one is read as the same number. -/
theorem ofDecimal_eq_finite {x : Magnitude} {n k : Nat}
    (h : (n : ℚ) / 10 ^ k = (x.shortest .away).value) (negative : Bool) :
    Binary64.ofDecimal negative ⟨n, -(k : Int)⟩ = .finite negative x := by
  have value : (Decimal.mk n (-(k : Int))).value = (x.shortest .away).value := by
    rw [← h, Decimal.value, zpow_neg, zpow_natCast]
    rfl
  rw [Binary64.ofDecimal, Magnitude.magnitude_of_value_eq .away value, Binary64.ofMagnitude]

theorem feedRate_finite (x : Magnitude) :
    feedRate (.finite false x) =
      (x.shortest .away).positional ++ if x.isWhole then ['.'] else [] := by
  rw [feedRate, Style.write, writeDecimal_plain]
  generalize hd : x.shortest .away = d
  have tie : x.shortest Style.plain.tie = d := hd
  rw [tie, if_neg Bool.false_ne_true, List.nil_append]

/-- **Feed rates** have one point, and read back. -/
theorem writesRate_feedRate {rate : Binary64} (h : rate.isFinite = true) (hp : 0 < rate.units) :
    WritesRate rate (feedRate rate) := by
  rcases rate with _ | _ | ⟨_ | _, x⟩
  · cases h
  · cases h
  · have value := (x.shortest .away).value_eq_div
    have places := x.places_shortest_eq_zero_iff .away
    have back {n k : Nat} (h : (n : ℚ) / 10 ^ k = (x.shortest .away).value) :=
      ofDecimal_eq_finite h false
    rw [feedRate_finite, Decimal.positional, pointed]
    generalize x.shortest .away = d at value places back ⊢
    generalize d.coefficient * Nat.pow 10 d.exponent.toNat = n at value ⊢
    by_cases whole : d.places = 0
    · rw [if_pos whole, if_pos (places.1 whole)]
      have none : ∀ c ∈ ([] : Text), isDigit c = true := by simp
      refine .intro (isDigits_digits n) none ?_
      rw [List.append_nil, digitsValue_digits]
      exact back (k := 0) (by rw [value, whole])
    · have positive := Nat.pos_of_ne_zero whole
      rw [if_neg whole, if_neg (mt places.2 whole), List.append_nil]
      refine .intro (isDigits_digits _) (isDigits_paddedDigits _ _).digit ?_
      simp only [Nat.pow_eq]
      rw [digitsValue_whole_append_fraction n positive,
        length_paddedDigits positive (Nat.mod_lt n (by positivity))]
      exact back value.symm
  · simp only [Binary64.units] at hp
    omega

/-! ## Blocks -/

/-- The texts of blocks without numbers. -/
def fixedTexts : List String :=
  ["G90 G54 G64 G50 G17 G40 G80 G94 G91.1 G49", "G30", "G54", "M5 (Spindle Stop)",
    "M9 (Coolant Off)", "G30 (Go Home)", "M30 (END)", "G21 (METRIC)", "G20 (INCHES)"]

/-- The greatest number of a tool, which is `2 ^ 32 - 1`. -/
def greatestTool : Nat := 4294967295

/-- What stands behind the number of a line, where the feed rate is given. -/
inductive WellFormed (rate : Binary64) : Text → Prop
  | fixed {t : Text} (h : t ∈ fixedTexts.map String.toList) : WellFormed rate t
  | toolChange {n : Nat} {t : Text} (h : n ≤ greatestTool) (ht : WritesNat n t) :
      WellFormed rate ('T' :: t ++ " G43 H".toList ++ t ++ " M6 (Tool Change)".toList)
  | spindleStart {n : Nat} {t : Text} (h : 1 ≤ n) (ht : WritesNat n t) :
      WellFormed rate ('S' :: t ++ " M3 (Spindle Start)".toList)
  | rapidTo {x y : Text} (hx : IsSigned x) (hy : IsSigned y) :
      WellFormed rate ("G0 X".toList ++ x ++ " Y".toList ++ y)
  | rapidHeight {z : Text} (hz : IsSigned z) : WellFormed rate ("G0 Z".toList ++ z)
  | drillCycle {x y z r f : Text} (hx : IsSigned x) (hy : IsSigned y) (hz : IsSigned z)
      (hr : IsSigned r) (hf : WritesRate rate f) :
      WellFormed rate ("G98 G81 X".toList ++ x ++ " Y".toList ++ y ++ " Z".toList ++ z ++
        " R".toList ++ r ++ " F".toList ++ f)
  | hole {x y : Text} (hx : IsSigned x) (hy : IsSigned y) :
      WellFormed rate ('X' :: x ++ " Y".toList ++ y)

/-! ## No plus sign -/

theorem plus_notMem_of_isDigit {t : Text} (h : ∀ c ∈ t, isDigit c = true) : '+' ∉ t :=
  fun hm => absurd (h _ hm) (by decide)

theorem IsSigned.plus_notMem {t : Text} (h : IsSigned t) : '+' ∉ t := by
  have unsigned {t : Text} (h : IsUnsigned t) : '+' ∉ t := by
    cases h with
    | whole h => exact plus_notMem_of_isDigit h.digit
    | fraction h hu => simp [plus_notMem_of_isDigit h.digit, plus_notMem_of_isDigit hu.digit]
  cases h with
  | plain h => exact unsigned h
  | minus h => simp [unsigned h]

theorem WritesRate.plus_notMem {rate : Binary64} {t : Text} (h : WritesRate rate t) : '+' ∉ t := by
  cases h with
  | intro h hf => simp [plus_notMem_of_isDigit h.digit, plus_notMem_of_isDigit hf]

/-- There is no plus sign in a well-formed text. -/
theorem WellFormed.plus_notMem {rate : Binary64} {t : Text} (h : WellFormed rate t) : '+' ∉ t := by
  cases h with
  | fixed h =>
    revert t
    decide
  | toolChange _ ht => simp [plus_notMem_of_isDigit ht.digit]
  | spindleStart _ ht => simp [plus_notMem_of_isDigit ht.digit]
  | rapidTo hx hy => simp [hx.plus_notMem, hy.plus_notMem]
  | rapidHeight hz => simp [hz.plus_notMem]
  | drillCycle hx hy hz hr hf =>
    simp [hx.plus_notMem, hy.plus_notMem, hz.plus_notMem, hr.plus_notMem, hf.plus_notMem]
  | hole hx hy => simp [hx.plus_notMem, hy.plus_notMem]

/-! ## Proper blocks -/

/-- A position whose coordinates are finite. -/
def FinitePosition (x y : Int) : Prop :=
  (hundredThousandths x).isFinite = true ∧ (hundredThousandths y).isFinite = true

/-- A block whose numbers are finite, with a spindle that turns and the given feed rate, which is
positive. -/
def Block.Proper (rate : Binary64) : Block → Prop
  | .spindleStart speed => speed ≠ 0
  | .rapidTo x y | .hole x y => FinitePosition x y
  | .rapidHeight z => z.isFinite = true
  | .drillCycle x y bottom retract feed =>
    FinitePosition x y ∧ bottom.isFinite = true ∧ retract.isFinite = true ∧ feed = rate ∧
      rate.isFinite = true ∧ 0 < rate.units
  | _ => True

/-- **The text of a block** is well formed. -/
theorem Block.wellFormed_text (precision : Option Nat) {rate : Binary64} {b : Block}
    (h : b.Proper rate) : WellFormed rate (b.text precision) := by
  have pair {x y : Int} (h : FinitePosition x y) :=
    And.intro (isSigned_coordinate precision h.1) (isSigned_coordinate precision h.2)
  -- Blocks have the blank in front of `Y` by itself. Numbers are variables here, so that nothing
  -- looks into their digits.
  have move {t u : Text} (ht : IsSigned t) (hu : IsSigned u) :
      WellFormed rate ('X' :: t ++ ' ' :: 'Y' :: u) := by
    simpa using WellFormed.hole ht hu
  have rapid {t u : Text} (ht : IsSigned t) (hu : IsSigned u) :
      WellFormed rate ("G0 ".toList ++ ('X' :: t ++ ' ' :: 'Y' :: u)) := by
    simpa using WellFormed.rapidTo ht hu
  have cycle {t u z r f : Text} (ht : IsSigned t) (hu : IsSigned u) (hz : IsSigned z)
      (hr : IsSigned r) (hf : WritesRate rate f) :
      WellFormed rate ("G98 G81 ".toList ++ ('X' :: t ++ ' ' :: 'Y' :: u) ++ " Z".toList ++ z ++
        " R".toList ++ r ++ " F".toList ++ f) := by
    simpa using WellFormed.drillCycle ht hu hz hr hf
  cases b with
  | preamble | home | goHome | workOffset | spindleStop | coolantOff | programStop =>
    unfold text
    dsimp only
    exact .fixed (by decide)
  | unit u =>
    unfold text
    cases u <;> dsimp only <;> exact .fixed (by decide)
  | toolChange tool => exact .toolChange (Nat.le_of_lt_succ tool.toNat_lt) (writesNat_digits _)
  | spindleStart speed =>
    refine .spindleStart (Nat.pos_of_ne_zero fun zero => h ?_) (writesNat_digits _)
    exact UInt32.toNat_inj.1 zero
  | rapidTo x y =>
    obtain ⟨hx, hy⟩ := pair h
    exact rapid hx hy
  | rapidHeight z => exact .rapidHeight (isSigned_coordinate precision h)
  | drillCycle x y bottom retract feed =>
    obtain ⟨position, lower, upper, rfl, finite, positive⟩ := h
    obtain ⟨hx, hy⟩ := pair position
    exact cycle hx hy (isSigned_coordinate precision lower)
      (isSigned_coordinate precision upper) (writesRate_feedRate finite positive)
  | hole x y =>
    obtain ⟨hx, hy⟩ := pair h
    exact move hx hy

end DrillPost.Gcode
