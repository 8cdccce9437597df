/-!
Doubles taken apart. A finite double is a sign, a mantissa and a power of two, and every exact
rule on numbers of this library (their text, whole parts, rounding to single precision) is
stated on these three.
-/

namespace Wavetable.Number

-- The powers of the core library, whichever other instance is in scope.
attribute [local instance (1100)] instPowNat

/-- What a double stands for; a finite one has the size `mantissa * 2 ^ exponent`. -/
inductive Double
  | nan
  | infinite (negative : Bool)
  | finite (negative : Bool) (mantissa : Nat) (exponent : Int)
  deriving DecidableEq, Repr

/-- The exponent of the smallest positive double. -/
def Double.minExponent : Int := -1074

/-- A double as sign, mantissa and exponent. A zero has the smallest exponent. -/
def Double.ofFloat (x : Float) : Double :=
  match x.toModel.unpack with
  | .notANumber => .nan
  | .infinity sign => .infinite (sign == .negative)
  | .zero sign => .finite (sign == .negative) 0 Double.minExponent
  | .finite sign mantissa exponent _ => .finite (sign == .negative) mantissa exponent

/-- The sign bit, which a zero and an infinity carry as well. -/
def Double.isNegative : Double → Bool
  | .nan => false
  | .infinite negative => negative
  | .finite negative _ _ => negative

/-- The quiet result of an operation without a value. -/
def nan : Float := 0.0 / 0.0

/-- The result of an operation beyond the largest double. -/
def infinity : Float := 1.0 / 0.0

/-- The power of two with an exponent in the range of the normal doubles. -/
def powerOfTwo (exponent : Int) : Float :=
  Float.ofBits (UInt64.ofNat ((exponent + 1023).toNat * 2 ^ (52 : Nat)))

/-- The least double above a finite one; above the largest it is infinity. -/
def nextAbove (x : Float) : Float :=
  if x == 0.0 then Float.ofBits 1
  else if x > 0.0 then Float.ofBits (x.toBits + 1)
  else Float.ofBits (x.toBits - 1)

def withSign (negative : Bool) (x : Float) : Float :=
  if negative then -x else x

/-- The policy for degenerate results: NaN and the infinities count as zero. -/
def finiteOrZero (x : Float) : Float :=
  if x.isFinite then x else 0.0

/-- The largest whole number not above a double that is finite and not negative. -/
def wholePart (x : Float) : Float :=
  match Double.ofFloat x with
  | .finite _ mantissa (.negSucc k) => Float.ofNat (mantissa / 2 ^ (k + 1))
  | _ => x

/-- The largest whole number not above a finite double. -/
def Double.floor? : Double → Option Int
  | .finite negative mantissa exponent =>
      let size : Int := mantissa * 2 ^ exponent.toNat
      some ((if negative then -size else size) / 2 ^ (-exponent).toNat)
  | _ => none

/-- The whole number nearest to a finite double; halfway between two it is the one farther from
zero.
-/
def Double.nearest? : Double → Option Int
  | .finite negative mantissa exponent =>
      let unit : Int := 2 ^ (-exponent).toNat
      let size : Int := (2 * (mantissa * 2 ^ exponent.toNat) + unit) / (2 * unit)
      some (if negative then -size else size)
  | _ => none

/-- The nearest whole number as the engine rounds: half a unit is added to the size, the
fraction is dropped, and the sign comes back.
-/
def roundHalfAway (x : Float) : Float :=
  if x.isFinite then
    withSign (Double.ofFloat x).isNegative (wholePart (x.abs + 0.5))
  else x

/-- A whole number as a double, or nothing where it lies beyond the largest one. -/
def ofInteger? (n : Int) : Option Float :=
  let x := Float.ofInt n
  if x.isFinite then some x else none

end Wavetable.Number
