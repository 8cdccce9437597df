import Wavetable.Number.Double

/-!
Samples limited to a range. NaN becomes zero and the infinities become the bounds before the
range is applied, so every number has a sample.
-/

namespace Wavetable.Grid

open Number

/-- NaN becomes zero, and an infinity the bound on its side. -/
def settle (low high x : Float) : Float :=
  if x.isNaN then 0.0
  else if x.isFinite then x
  else if x > 0.0 then high
  else low

/-- A number at least as large as the lower and at most as large as the upper bound. One that is
equal to a bound stays as it is, so a zero keeps its sign; of bounds in the wrong order the upper
one counts.
-/
def limit (low high x : Float) : Float :=
  let raised := if x < low then low else x
  if raised > high then high else raised

/-- The sample of a number. A bound that is no number leaves none. -/
def clamp (low high x : Float) : Float :=
  if low.isNaN || high.isNaN then nan else limit low high (settle low high x)

end Wavetable.Grid
