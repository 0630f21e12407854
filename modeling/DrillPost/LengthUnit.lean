import DrillPost.Text.Blank

/-!
# Units of length

A drill file chooses its unit with `M71` or `M72`; a G-code program with `G21` or `G20`.
-/

namespace DrillPost

inductive LengthUnit
  | metric
  | imperial
  deriving DecidableEq, Repr

namespace LengthUnit

/-- The unit that a machine code of a drill file selects. -/
def ofMachineCode (code : Int) : Option LengthUnit :=
  if code = 71 then some metric else if code = 72 then some imperial else none

theorem ofMachineCode_eq_some_iff {code : Int} {u : LengthUnit} :
    ofMachineCode code = some u ↔ code = 71 ∧ u = metric ∨ code = 72 ∧ u = imperial := by
  unfold ofMachineCode
  grind

/-- The word that selects the unit in a G-code program. -/
def word : LengthUnit → String
  | metric => "G21"
  | imperial => "G20"

def label : LengthUnit → String
  | metric => "METRIC"
  | imperial => "INCHES"

def symbol : LengthUnit → String
  | metric => "mm"
  | imperial => "in"

def name : LengthUnit → String
  | metric => "Metric"
  | imperial => "Imperial"

def key : LengthUnit → String
  | metric => "metric"
  | imperial => "imperial"

def ofKey (key : String) : Option LengthUnit :=
  [metric, imperial].find? (·.key == key)

theorem ofKey_key (u : LengthUnit) : ofKey u.key = some u := by cases u <;> decide

end LengthUnit

end DrillPost
