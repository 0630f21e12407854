import DrillPost.Settings.Basic

/-!
# Admissible settings

Settings are admissible when the spindle turns, the drill is fed, and the three heights are finite
and in order: bottom below feed height, feed height not above safe height. `Settings.check` finds
the first condition that is violated, in this order.
-/

namespace DrillPost

open Number

inductive Height
  | safe
  | feed
  | bottom
  deriving DecidableEq, Repr

inductive Violation
  | spindleStandsStill
  | feedRateNotPositive
  | heightNotFinite (height : Height)
  | safeBelowFeed
  | bottomNotBelowFeed
  | precisionTooGreat
  deriving DecidableEq, Repr

/-- The greatest number of digits after the point. -/
def greatestPrecision : Nat := 10

def Height.key : Height → String
  | safe => "drill.safe_z"
  | feed => "drill.feed_z"
  | bottom => "drill.hole_bottom_z"

namespace Violation

def key : Violation → String
  | spindleStandsStill => "drill.spindle_speed"
  | feedRateNotPositive => "drill.feed_rate"
  | heightNotFinite height => height.key
  | safeBelowFeed => "drill.safe_z"
  | bottomNotBelowFeed => "drill.hole_bottom_z"
  | precisionTooGreat => "output.coordinate_precision"

def reason : Violation → String
  | spindleStandsStill | feedRateNotPositive => "must be > 0"
  | heightNotFinite _ => "must be a finite number"
  | safeBelowFeed => "must not be below drill.feed_z"
  | bottomNotBelowFeed => "must be below drill.feed_z"
  | precisionTooGreat => "must be at most " ++ toString greatestPrecision

end Violation

/-- The first condition on drilling that is violated. -/
def Drilling.violation (d : Drilling) : Option Violation :=
  if d.spindleSpeed = 0 then some .spindleStandsStill
  else if !d.feedRate.isFinite || d.feedRate.le .zero then some .feedRateNotPositive
  else if !d.safeHeight.isFinite then some (.heightNotFinite .safe)
  else if !d.feedHeight.isFinite then some (.heightNotFinite .feed)
  else if !d.bottomHeight.isFinite then some (.heightNotFinite .bottom)
  else if d.safeHeight.lt d.feedHeight then some .safeBelowFeed
  else if d.feedHeight.le d.bottomHeight then some .bottomNotBelowFeed
  else none

def Output.violation (o : Output) : Option Violation :=
  if o.precision.any (greatestPrecision < ·) then some .precisionTooGreat else none

namespace Settings

def violation (s : Settings) : Option Violation := s.drilling.violation <|> s.output.violation

def check (s : Settings) : Except Violation Settings :=
  match s.violation with
  | some v => .error v
  | none => .ok s

end Settings

end DrillPost
