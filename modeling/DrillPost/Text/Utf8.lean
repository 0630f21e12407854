import DrillPost.Text.Blank

/-!
# UTF-8

Octets read as text. The reader walks over the octets once and keeps what a character still lacks:
how many octets, and the range of the next one. An octet outside that range ends the unfinished
character, and is then read afresh; so the octets of a character that breaks off count as one
fault, as the Unicode rule on maximal subparts wants it.

* `encode`: the octets of a text;
* `read`: the characters of a list of octets, `none` for each fault;
* `decode`: the text, if there is no fault;
* `decodeLossy`: the text with U+FFFD for each fault.
-/

namespace DrillPost.Utf8

def encode (t : Text) : List UInt8 := t.flatMap String.utf8EncodeChar

@[simp] theorem encode_nil : encode [] = [] := rfl

/-- A character of which some octets are still missing. -/
structure Pending where
  bits : Nat
  /-- The octets missing after the next one. -/
  after : Nat
  low : UInt8
  high : UInt8
  deriving DecidableEq, Repr

inductive Start
  | whole (c : Char)
  | begun (p : Pending)
  | fault
  deriving DecidableEq, Repr

/-- The reading of an octet at the start of a character. The range of the second octet leaves out
overlong forms, surrogates and what lies beyond U+10FFFF. -/
def start (b : UInt8) : Start :=
  let n := b.toNat
  if n < 0x80 then .whole (Char.ofNat n)
  else if 0xC2 ≤ n && n ≤ 0xDF then .begun ⟨n - 0xC0, 0, 0x80, 0xBF⟩
  else if n == 0xE0 then .begun ⟨0, 1, 0xA0, 0xBF⟩
  else if n == 0xED then .begun ⟨0xD, 1, 0x80, 0x9F⟩
  else if 0xE1 ≤ n && n ≤ 0xEF then .begun ⟨n - 0xE0, 1, 0x80, 0xBF⟩
  else if n == 0xF0 then .begun ⟨0, 2, 0x90, 0xBF⟩
  else if 0xF1 ≤ n && n ≤ 0xF3 then .begun ⟨n - 0xF0, 2, 0x80, 0xBF⟩
  else if n == 0xF4 then .begun ⟨4, 2, 0x80, 0x8F⟩
  else .fault

def Pending.accepts (p : Pending) (b : UInt8) : Bool := p.low ≤ b && b ≤ p.high

def Pending.extend (p : Pending) (b : UInt8) : Nat := p.bits * 64 + (b.toNat - 0x80)

/-- The characters of a list of octets, with `none` for each fault, when one is pending. -/
def readFrom : Option Pending → List UInt8 → List (Option Char)
  | none, [] => []
  | some _, [] => [none]
  | none, b :: bs =>
    match start b with
    | .whole c => some c :: readFrom none bs
    | .begun p => readFrom (some p) bs
    | .fault => none :: readFrom none bs
  | some p, b :: bs =>
    if p.accepts b then
      match p.after with
      | 0 => some (Char.ofNat (p.extend b)) :: readFrom none bs
      | k + 1 => readFrom (some ⟨p.extend b, k, 0x80, 0xBF⟩) bs
    else
      none :: match start b with
        | .whole c => some c :: readFrom none bs
        | .begun q => readFrom (some q) bs
        | .fault => none :: readFrom none bs

def read (bs : List UInt8) : List (Option Char) := readFrom none bs

def decode (bs : List UInt8) : Option Text := (read bs).mapM id

def decodeLossy (bs : List UInt8) : Text := (read bs).map (·.getD '\uFFFD')

/-- An octet that cannot continue a character ends it as a fault and is read afresh. -/
theorem readFrom_of_not_accepts {p : Pending} {b : UInt8} (h : p.accepts b = false)
    (bs : List UInt8) : readFrom (some p) (b :: bs) = none :: readFrom none (b :: bs) := by
  simp only [readFrom, h]
  rfl

end DrillPost.Utf8
