import DrillPost.Proofs.Text.Separation
import DrillPost.Text.Utf8
import Mathlib

/-!
# Decoding and line feeds

An octet of ASCII is never a part of a longer character. Whatever is unfinished in front of it is a
fault, and the octet is read as itself. So octets may be cut at their line feeds and decoded then,
or decoded first and cut then.

* `Pending.Wide`: what holds of every unfinished character;
* `decodeLossy_append_cons`: decoding around an octet of ASCII;
* `pieces_decodeLossy`: decoding and cutting at line feeds commute;
* `decodeLossy_encode`, `decode_encode`: what was encoded is read back.
-/

namespace DrillPost.Utf8

/-! ## Unfinished characters -/

theorem Pending.accepts_iff {p : Pending} {b : UInt8} :
    p.accepts b = true ↔ p.low.toNat ≤ b.toNat ∧ b.toNat ≤ p.high.toNat := by
  rw [accepts, Bool.and_eq_true, decide_eq_true_iff, decide_eq_true_iff, UInt8.le_iff_toNat_le,
    UInt8.le_iff_toNat_le]

/-- Only an octet beyond ASCII continues the character, and the character that it belongs to lies
beyond ASCII too. -/
structure Pending.Wide (p : Pending) : Prop where
  low : 128 ≤ p.low.toNat
  least : 128 ≤ (p.bits * 64 + (p.low.toNat - 128)) * 64 ^ p.after

theorem start_of_lt {b : UInt8} (h : b.toNat < 128) : start b = .whole (Char.ofNat b.toNat) := by
  simp [start, h]

theorem lt_of_start_eq_whole {b : UInt8} {c : Char} (h : start b = .whole c) :
    b.toNat < 128 ∧ c = Char.ofNat b.toNat := by
  unfold start at h
  dsimp only at h
  split_ifs at h with hb
  exact ⟨hb, (Start.whole.inj h).symm⟩

theorem wide_of_start_eq_begun {b : UInt8} {p : Pending} (h : start b = .begun p) : p.Wide := by
  unfold start at h
  dsimp only at h
  split_ifs at h <;> obtain rfl := Start.begun.inj h
  all_goals
    simp only [Bool.and_eq_true, decide_eq_true_eq] at *
    constructor <;> simp only [UInt8.reduceToNat] <;> omega

namespace Pending.Wide

variable {p : Pending} {b : UInt8}

theorem accepts_eq_false (h : p.Wide) (hb : b.toNat < 128) : p.accepts b = false := by
  have low := h.low
  rw [Bool.eq_false_iff, ne_eq, accepts_iff]
  omega

theorem le_extend (h : p.Wide) (hb : p.accepts b = true) :
    128 ≤ p.extend b * 64 ^ p.after := by
  have between := accepts_iff.1 hb
  have grow : p.bits * 64 + (p.low.toNat - 128) ≤ p.extend b :=
    Nat.add_le_add_left (Nat.sub_le_sub_right between.1 128) _
  exact le_trans h.least (Nat.mul_le_mul_right _ grow)

theorem extend (h : p.Wide) (hb : p.accepts b = true) {k : Nat} (hk : p.after = k + 1) :
    Wide ⟨p.extend b, k, 0x80, 0xBF⟩ := by
  have least := h.le_extend hb
  rw [hk, pow_succ] at least
  constructor
  · exact Nat.le_refl 128
  · calc 128 ≤ p.extend b * (64 ^ k * 64) := least
      _ = (p.extend b * 64 + (128 - 128)) * 64 ^ k := by ring

end Pending.Wide

/-! ## Around an octet of ASCII -/

/-- An octet of ASCII ends whatever is pending and is read as itself. -/
theorem readFrom_append_cons {b : UInt8} (hb : b.toNat < 128) (rest : List UInt8)
    {p : Option Pending} (hp : ∀ q ∈ p, q.Wide) (xs : List UInt8) :
    readFrom p (xs ++ b :: rest) =
      readFrom p xs ++ some (Char.ofNat b.toNat) :: readFrom none rest := by
  fun_induction readFrom p xs with
  | case1 => simp [readFrom, start_of_lt hb]
  | case2 q =>
    have ended : q.accepts b = false := (hp q rfl).accepts_eq_false hb
    simp [readFrom, ended, start_of_lt hb]
  | case3 x xs c hx ih => simp [readFrom, hx, ih]
  | case4 x xs q hx ih =>
    have hq := ih (by simpa using wide_of_start_eq_begun hx)
    simp [readFrom, hx, hq]
  | case5 x xs hx ih => simp [readFrom, hx, ih]
  | case6 q x xs ha hk ih => simp [readFrom, ha, hk, ih]
  | case7 q x xs ha k hk ih =>
    have hq := ih (by simpa using (hp q rfl).extend ha hk)
    simp [readFrom, ha, hk, hq]
  | case8 q x xs ha fresh begun =>
    rw [List.cons_append, readFrom_of_not_accepts (by simpa using ha)]
    cases hx : start x with
    | whole c => simp [readFrom, hx, fresh]
    | begun r =>
      have hr := begun r (by simpa using wide_of_start_eq_begun hx)
      simp [readFrom, hx, hr]
    | fault => simp [readFrom, hx, fresh]

theorem ofNat_ne_lineFeed {n : Nat} (h : n ≠ 10) : Char.ofNat n ≠ '\n' := by
  intro hc
  have hn := congrArg Char.toNat hc
  rw [Char.toNat_ofNat] at hn
  split at hn
  · exact h hn
  · cases hn

/-- No other octet is read as a line feed. -/
theorem lineFeed_notMem_readFrom {p : Option Pending} (hp : ∀ q ∈ p, q.Wide) {xs : List UInt8}
    (h : 10 ∉ xs) : some '\n' ∉ readFrom p xs := by
  have whole {x : UInt8} {c : Char} (hx : start x = .whole c) (h10 : 10 ≠ x) : c ≠ '\n' := by
    obtain ⟨-, rfl⟩ := lt_of_start_eq_whole hx
    exact ofNat_ne_lineFeed fun hn => h10 (UInt8.toNat_inj.1 hn.symm)
  fun_induction readFrom p xs with
  | case1 => simp
  | case2 q => simp
  | case3 x xs c hx ih =>
    simp only [List.mem_cons, not_or] at h
    simp [ih hp h.2, (whole hx h.1).symm]
  | case4 x xs q hx ih =>
    simp only [List.mem_cons, not_or] at h
    exact ih (by simpa using wide_of_start_eq_begun hx) h.2
  | case5 x xs hx ih =>
    simp only [List.mem_cons, not_or] at h
    simp [ih hp h.2]
  | case6 q x xs ha hk ih =>
    simp only [List.mem_cons, not_or] at h
    have least := (hp q rfl).le_extend ha
    rw [hk, pow_zero, mul_one] at least
    have long : Char.ofNat (q.extend x) ≠ '\n' := ofNat_ne_lineFeed (by omega)
    simp [ih (by simp) h.2, long.symm]
  | case7 q x xs ha k hk ih =>
    simp only [List.mem_cons, not_or] at h
    exact ih (by simpa using (hp q rfl).extend ha hk) h.2
  | case8 q x xs ha fresh begun =>
    simp only [List.mem_cons, not_or] at h
    cases hx : start x with
    | whole c => simp [fresh (by simp) h.2, (whole hx h.1).symm]
    | begun r => simpa using begun r (by simpa using wide_of_start_eq_begun hx) h.2
    | fault => simp [fresh (by simp) h.2]

/-! ## Decoding -/

theorem decodeLossy_append_cons {b : UInt8} (hb : b.toNat < 128) (xs rest : List UInt8) :
    decodeLossy (xs ++ b :: rest) =
      decodeLossy xs ++ Char.ofNat b.toNat :: decodeLossy rest := by
  simp [decodeLossy, read, readFrom_append_cons hb rest (p := none) (by simp) xs]

theorem lineFeed_notMem_decodeLossy {xs : List UInt8} (h : 10 ∉ xs) : '\n' ∉ decodeLossy xs := by
  intro hm
  obtain ⟨c, hc, he⟩ := List.mem_map.1 hm
  cases c with
  | none => simp at he
  | some c =>
    obtain rfl : c = '\n' := he
    exact lineFeed_notMem_readFrom (p := none) (by simp) h hc

theorem eq_nil_of_readFrom_eq_nil {p : Option Pending} {xs : List UInt8}
    (h : readFrom p xs = []) : p = none ∧ xs = [] := by
  fun_induction readFrom p xs with
  | case1 => exact ⟨rfl, rfl⟩
  | case4 x xs q hx ih => exact absurd (ih h).1 (by simp)
  | case7 q x xs ha k hk ih => exact absurd (ih h).1 (by simp)
  | _ => cases h

theorem decodeLossy_ne_nil {xs : List UInt8} (h : xs ≠ []) : decodeLossy xs ≠ [] := by
  intro hn
  exact h (eq_nil_of_readFrom_eq_nil (List.map_eq_nil_iff.1 hn)).2

/-- **Decoding and cutting at line feeds commute.** -/
theorem pieces_decodeLossy (octets : List UInt8) :
    pieces '\n' (decodeLossy octets) = (pieces 10 octets).map decodeLossy := by
  induction octets using separated_induction (10 : UInt8) with
  | last p hp =>
    by_cases hne : p = []
    · subst hne
      rfl
    · rw [pieces_of_notMem hp hne, pieces_of_notMem (lineFeed_notMem_decodeLossy hp)
        (decodeLossy_ne_nil hne)]
      rfl
  | next p rest hp ih =>
    have line (rest : List UInt8) :
        decodeLossy (p ++ 10 :: rest) = decodeLossy p ++ '\n' :: decodeLossy rest :=
      decodeLossy_append_cons (by decide) p rest
    rw [pieces_append_cons hp, line, pieces_append_cons (lineFeed_notMem_decodeLossy hp), ih,
      List.map_cons, line]
    rfl

/-! ## What was encoded -/

/-- The first of two octets. -/
theorem start_two {m : Nat} (h : 2 ≤ m) (h' : m < 32) :
    start (UInt8.ofNat (m + 192)) = .begun ⟨m, 0, 0x80, 0xBF⟩ := by
  unfold start
  rw [UInt8.toNat_ofNat_of_lt' (by unfold UInt8.size; omega)]
  grind

/-- The first of three octets. -/
theorem start_three {m : Nat} (h : m < 16) :
    start (UInt8.ofNat (m + 224)) =
      .begun ⟨m, 1, if m = 0 then 0xA0 else 0x80, if m = 13 then 0x9F else 0xBF⟩ := by
  unfold start
  rw [UInt8.toNat_ofNat_of_lt' (by unfold UInt8.size; omega)]
  grind

/-- The first of four octets. -/
theorem start_four {m : Nat} (h : m < 5) :
    start (UInt8.ofNat (m + 240)) =
      .begun ⟨m, 2, if m = 0 then 0x90 else 0x80, if m = 4 then 0x8F else 0xBF⟩ := by
  unfold start
  rw [UInt8.toNat_ofNat_of_lt' (by unfold UInt8.size; omega)]
  grind

theorem readFrom_cons_of_begun {b : UInt8} {q : Pending} (h : start b = .begun q)
    (rest : List UInt8) : readFrom none (b :: rest) = readFrom (some q) rest := by
  simp [readFrom, h]

section

variable {q : Pending} {m : Nat} (h : q.low.toNat ≤ m + 128) (h' : m + 128 ≤ q.high.toNat)
  (rest : List UInt8)

include h h'

theorem accepts_ofNat :
    q.accepts (UInt8.ofNat (m + 128)) = true ∧
      q.extend (UInt8.ofNat (m + 128)) = q.bits * 64 + m := by
  have high := q.high.toNat_lt
  have hm : (UInt8.ofNat (m + 128)).toNat = m + 128 :=
    UInt8.toNat_ofNat_of_lt' (by unfold UInt8.size; omega)
  constructor
  · rw [Pending.accepts_iff, hm]
    exact ⟨h, h'⟩
  · unfold Pending.extend
    rw [hm]
    omega

/-- An octet in range continues a character. -/
theorem readFrom_cons_of_succ {k : Nat} (hk : q.after = k + 1) :
    readFrom (some q) (UInt8.ofNat (m + 128) :: rest) =
      readFrom (some ⟨q.bits * 64 + m, k, 0x80, 0xBF⟩) rest := by
  obtain ⟨ha, he⟩ := accepts_ofNat h h'
  simp only [readFrom, ha, hk, he, if_true]

/-- An octet in range ends a character when no other is missing. -/
theorem readFrom_cons_of_zero (hk : q.after = 0) :
    readFrom (some q) (UInt8.ofNat (m + 128) :: rest) =
      some (Char.ofNat (q.bits * 64 + m)) :: readFrom none rest := by
  obtain ⟨ha, he⟩ := accepts_ofNat h h'
  simp only [readFrom, ha, hk, he, if_true]

end

theorem readFrom_encodeChar (c : Char) (rest : List UInt8) :
    readFrom none (String.utf8EncodeChar c ++ rest) = some c :: readFrom none rest := by
  have valid : c.toNat < 0xD800 ∨ 0xDFFF < c.toNat ∧ c.toNat < 0x110000 := c.valid
  have back : Char.ofNat c.toNat = c := Char.ofNat_toNat c
  unfold String.utf8EncodeChar
  simp only [Char.toNat_val]
  generalize c.toNat = v at *
  -- an octet that is not the second one may be any of 0x80 to 0xBF
  have low {m : Nat} : (0x80 : UInt8).toNat ≤ m + 128 := Nat.le_add_left 128 m
  have high {m : Nat} : m % 64 + 128 ≤ (0xBF : UInt8).toNat := by
    simp only [UInt8.reduceToNat]
    omega
  split_ifs with h₁ h₂ h₃
  · have hv : (UInt8.ofNat v).toNat = v :=
      UInt8.toNat_ofNat_of_lt' (by unfold UInt8.size; omega)
    simp [readFrom, start_of_lt (b := UInt8.ofNat v) (by omega), hv, back]
  · have value : v / 64 % 32 * 64 + v % 64 = v := by omega
    simp only [List.cons_append, List.nil_append]
    rw [readFrom_cons_of_begun (start_two (by omega) (by omega)),
      readFrom_cons_of_zero low high rest rfl, value, back]
  · have value : (v / 4096 % 16 * 64 + v / 64 % 64) * 64 + v % 64 = v := by omega
    simp only [List.cons_append, List.nil_append]
    rw [readFrom_cons_of_begun (start_three (by omega)), readFrom_cons_of_succ _ _ _ rfl,
      readFrom_cons_of_zero low high rest rfl, value, back]
    -- the range of the second octet
    all_goals
      dsimp only
      split_ifs <;> simp only [UInt8.reduceToNat] <;> omega
  · have value : ((v / 262144 % 8 * 64 + v / 4096 % 64) * 64 + v / 64 % 64) * 64 + v % 64 = v := by
      omega
    simp only [List.cons_append, List.nil_append]
    rw [readFrom_cons_of_begun (start_four (by omega)), readFrom_cons_of_succ _ _ _ rfl,
      readFrom_cons_of_succ low high _ rfl, readFrom_cons_of_zero low high rest rfl, value, back]
    -- the range of the second octet
    all_goals
      dsimp only
      split_ifs <;> simp only [UInt8.reduceToNat] <;> omega

theorem encode_append (t u : Text) : encode (t ++ u) = encode t ++ encode u := List.flatMap_append

theorem read_encode (t : Text) : read (encode t) = t.map some := by
  induction t with
  | nil => rfl
  | cons c t ih =>
    rw [encode, List.flatMap_cons, read, readFrom_encodeChar]
    exact congrArg (some c :: ·) ih

/-- **What was encoded is read back.** -/
theorem decodeLossy_encode (t : Text) : decodeLossy (encode t) = t := by
  simp [decodeLossy, read_encode]

/-- **What was encoded has no fault.** -/
theorem decode_encode (t : Text) : decode (encode t) = some t := by
  rw [decode, read_encode, List.mapM_map]
  induction t with
  | nil => rfl
  | cons c t ih => simp_all

end DrillPost.Utf8
