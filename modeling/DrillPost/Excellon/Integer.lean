import DrillPost.Number.Digits

/-!
# Numbers at the start of a field

The value of a field may begin with a whole number: blanks, at most one sign, and digits. What
follows the digits does not matter, so `0.0200` begins with 0. Numbers of more than 63 bits are
refused; as it is the digits that are measured and not the signed number, `-2 ^ 63` is refused too.

* `leadingInteger`: the number at the start of a text;
* `leadingInteger_eq_some_iff`: exactly when there is one.
-/

namespace DrillPost.Excellon

open Number

/-- The greatest row of digits that counts as a number, which is `2 ^ 63 - 1`. -/
def greatestMagnitude : Nat := 9223372036854775807

/-- A sign at the start of a text, true for minus, and what follows it. -/
def signOf : Text → Bool × Text
  | '-' :: r => (true, r)
  | '+' :: r => (false, r)
  | r => (false, r)

def signed (negative : Bool) (n : Nat) : Int := if negative then -(n : Int) else n

def leadingInteger (raw : Text) : Option Int :=
  let (negative, r) := signOf (Text.trimLeft raw)
  let ds := r.takeWhile isDigit
  if ds = [] then none
  else
    let n := digitsValue ds
    if greatestMagnitude < n then none
    else some (signed negative n)

/-- A text begins with a number exactly when digits follow its blanks and its sign, and these
digits write at most `2 ^ 63 - 1`. -/
theorem leadingInteger_eq_some_iff {raw : Text} {i : Int} :
    leadingInteger raw = some i ↔
      let (negative, r) := signOf (Text.trimLeft raw)
      let ds := r.takeWhile isDigit
      ds ≠ [] ∧ digitsValue ds ≤ greatestMagnitude ∧ i = signed negative (digitsValue ds) := by
  unfold leadingInteger
  grind

end DrillPost.Excellon
