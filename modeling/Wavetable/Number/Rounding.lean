import Wavetable.Number.Double

/-!
Division rounded to the nearest whole number, ties to the even one, and with it the nearest
single-precision number.
-/

namespace Wavetable.Number

-- The powers of the core library, whichever other instance is in scope.
attribute [local instance (1100)] instPowNat

/-- The whole number nearest to a quotient; halfway between two it is the even one. -/
def divNearestEven (num den : Nat) : Nat :=
  let low := num / den
  let twice := 2 * (num % den)
  if twice < den then low
  else if twice = den then low + low % 2
  else low + 1

/-- A size `mantissa * 2 ^ exponent` as a whole number of units `2 ^ unit`, to the nearest. -/
def unitsNearestEven (mantissa : Nat) (exponent unit : Int) : Nat :=
  if unit ≤ exponent then mantissa * 2 ^ (exponent - unit).toNat
  else divNearestEven mantissa (2 ^ (unit - exponent).toNat)

/-- The unit of the last place of a single-precision number with the given leading exponent. -/
def singleUnit (leading : Int) : Int :=
  max (leading - 23) (-149)

/-- The nearest single-precision number, held as a double. -/
def toSingle (x : Float) : Float :=
  match Double.ofFloat x with
  | .finite negative mantissa exponent =>
      let unit := singleUnit (exponent + (mantissa.log2 : Int))
      let units := unitsNearestEven mantissa exponent unit
      if unit ≤ 104 && units < 2 ^ (128 - unit).toNat then
        withSign negative (Float.ofNat units * powerOfTwo unit)
      else withSign negative infinity
  | _ => x

end Wavetable.Number
