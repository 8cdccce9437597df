import Wavetable.Number.Double

/-!
The shortest decimal that reads back as a given double. Of all decimals that round to the
double it has the fewest digits, and of those it is the nearest; halfway between two it is the
one with the even last digit.
-/

namespace Wavetable.Number

-- The powers of the core library, whichever other instance is in scope.
attribute [local instance (1100)] instPowNat

/-- A decimal of size `digits * 10 ^ exponent`. -/
structure Decimal where
  digits : Nat
  exponent : Int
  deriving DecidableEq, Repr

/-- A positive ratio, against which decimals are compared exactly. -/
structure Ratio where
  num : Nat
  den : Nat
  deriving DecidableEq, Repr

/-- The ratio `mantissa * 2 ^ exponent`. -/
def Ratio.ofBinary (mantissa : Nat) (exponent : Int) : Ratio :=
  if 0 ≤ exponent then ⟨mantissa * 2 ^ exponent.toNat, 1⟩ else ⟨mantissa, 2 ^ (-exponent).toNat⟩

/-- A ratio in units of `10 ^ exponent`. -/
def Ratio.inUnits (r : Ratio) (exponent : Int) : Ratio :=
  if 0 ≤ exponent then ⟨r.num, r.den * 10 ^ exponent.toNat⟩
  else ⟨r.num * 10 ^ (-exponent).toNat, r.den⟩

/-- The number of decimal digits of a whole number; zero has one. -/
def digitCount (n : Nat) : Nat :=
  (Nat.toDigits 10 n).length

/-- The decimal places before the point: the least `k` with `r < 10 ^ k`, from the digit counts
of both parts, which leave two candidates.
-/
def Ratio.magnitude (r : Ratio) : Int :=
  let guess : Int := (digitCount r.num : Int) - digitCount r.den
  let units := r.inUnits guess
  if units.num < units.den then guess else guess + 1

/-- The numbers that round to one double: a closed or open interval around it, in quarters of
the double's unit of the last place.
-/
structure RoundingInterval where
  lower : Nat
  upper : Nat
  closed : Bool
  exponent : Int
  deriving DecidableEq, Repr

/-- The interval around `mantissa * 2 ^ exponent`. Below a power of two the neighbour is only
half as far away, and the ends belong to the double with the even mantissa.
-/
def RoundingInterval.around (mantissa : Nat) (exponent : Int) : RoundingInterval :=
  let below := if mantissa = 2 ^ (52 : Nat) && Double.minExponent < exponent then 1 else 2
  ⟨4 * mantissa - below, 4 * mantissa + 2, mantissa % 2 = 0, exponent - 2⟩

/-- The decimal `digits * 10 ^ unit` lies in the interval. -/
def RoundingInterval.holds (interval : RoundingInterval) (digits : Nat) (unit : Int) : Bool :=
  let low := (Ratio.ofBinary interval.lower interval.exponent).inUnits unit
  let high := (Ratio.ofBinary interval.upper interval.exponent).inUnits unit
  if interval.closed then low.num ≤ digits * low.den && digits * high.den ≤ high.num
  else low.num < digits * low.den && digits * high.den < high.num

/-- The decimal of a given unit that reads back, the nearer one if both neighbours do. -/
def nearestInUnits? (mantissa : Nat) (exponent unit : Int) : Option Nat :=
  let interval := RoundingInterval.around mantissa exponent
  let value := (Ratio.ofBinary mantissa exponent).inUnits unit
  let low := value.num / value.den
  let twice := 2 * (value.num % value.den)
  let lowHolds := interval.holds low unit
  let highHolds := interval.holds (low + 1) unit
  if lowHolds && highHolds then
    if twice < value.den || (twice = value.den && low % 2 = 0) then some low else some (low + 1)
  else if lowHolds then some low
  else if highHolds then some (low + 1)
  else none

/-- The decimal with a count of digits in a unit. A carry into a further place leaves a one
with zeros, which are no digits of the shortest form.
-/
def Decimal.ofUnits (digits places : Nat) (unit : Int) : Decimal :=
  if digits = 10 ^ places then ⟨1, unit + places⟩ else ⟨digits, unit⟩

/-- The first unit, from the coarsest, in which some decimal reads back. -/
def firstReadBack (mantissa : Nat) (exponent magnitude : Int) : Nat → Nat → Decimal
  | _, 0 => ⟨0, 0⟩
  | places, tries + 1 =>
      let unit := magnitude - places
      match nearestInUnits? mantissa exponent unit with
      | some digits => .ofUnits digits places unit
      | none => firstReadBack mantissa exponent magnitude (places + 1) tries

/-- The shortest decimal of the size `mantissa * 2 ^ exponent`; seventeen digits always do. -/
def shortest (mantissa : Nat) (exponent : Int) : Decimal :=
  if mantissa = 0 then ⟨0, 0⟩
  else firstReadBack mantissa exponent (Ratio.ofBinary mantissa exponent).magnitude 1 17

end Wavetable.Number
