/-!
Positions of samples in a frame, and of frames in a table, as numbers from zero to one. They are
evenly spaced from end to end, and a single one stands in the middle.
-/

namespace Wavetable.Grid

/-- The position from zero to one of an index among a count of places. -/
def unitPosition (count index : Nat) : Float :=
  if count = 1 then 0.5 else Float.ofNat index / Float.ofNat (count - 1)

/-- A position from zero to one on the scale from minus one to one. -/
def centred (w : Float) : Float :=
  w * 2.0 - 1.0

/-- All positions from zero to one. -/
def unitPositions (count : Nat) : List Float :=
  (List.range count).map (unitPosition count)

end Wavetable.Grid
