import Wavetable.Json.Value
import Wavetable.Number.Double

/-!
Numbers of a settings file as they are given: a truth value, a whole number of any size or a
double. They are compared by their exact values.
-/

namespace Wavetable.Settings

open Number

-- The powers of the core library, whichever other instance is in scope.
attribute [local instance (1100)] instPowNat

inductive Numeric
  | truth (value : Bool)
  | whole (value : Int)
  | real (value : Float)
  deriving Repr, DecidableEq

namespace Numeric

/-- The number that a value is, if it is one. -/
def ofJson? : Json → Option Numeric
  | .bool value => some (.truth value)
  | .integer value => some (.whole value)
  | .number value => some (.real value)
  | _ => none

def toJson : Numeric → Json
  | .truth value => .bool value
  | .whole value => .integer value
  | .real value => .number value

/-- The whole number that is given as one; a truth value counts as zero or one. -/
def whole? : Numeric → Option Int
  | .truth value => some (if value then 1 else 0)
  | .whole value => some value
  | .real _ => none

def toFloat : Numeric → Float
  | .truth value => if value then 1.0 else 0.0
  | .whole value => Float.ofInt value
  | .real value => value

/-- A finite number as `numerator / 2 ^ scale`. -/
structure Exact where
  numerator : Int
  scale : Nat
  deriving Repr, DecidableEq

/-- The exact value of a finite number. -/
def exactValue? (n : Numeric) : Option Exact :=
  match n.whole? with
  | some value => some ⟨value, 0⟩
  | none =>
      match Double.ofFloat n.toFloat with
      | .finite negative mantissa exponent =>
          let size : Int := mantissa * 2 ^ exponent.toNat
          some ⟨if negative then -size else size, (-exponent).toNat⟩
      | _ => none

/-- One exact value lies below another. -/
def Exact.below (left right : Exact) : Bool :=
  left.numerator * 2 ^ right.scale < right.numerator * 2 ^ left.scale

/-- Two exact values are the same number. -/
def Exact.same (left right : Exact) : Bool :=
  left.numerator * 2 ^ right.scale = right.numerator * 2 ^ left.scale

/-- The least double that is not below a number. The doubles below it are the doubles below the
number, so a comparison with it is one with the exact number.
-/
def ceiling (n : Numeric) : Float :=
  let nearest := n.toFloat
  match (Numeric.real nearest).exactValue?, n.exactValue? with
  | some rounded, some exact => if rounded.below exact then nextAbove nearest else nearest
  | _, _ => nearest

/-- The number is less than zero. -/
def isNegative : Numeric → Bool
  | .truth _ => false
  | .whole value => value < 0
  | .real value => value < 0.0

/-- The number is not greater than zero. NaN is not. -/
def isAtMostZero : Numeric → Bool
  | .truth value => !value
  | .whole value => value ≤ 0
  | .real value => value ≤ 0.0

/-- Two numbers are equal. NaN equals nothing. -/
def same (left right : Numeric) : Bool :=
  match left.exactValue?, right.exactValue? with
  | some left, some right => left.same right
  | none, none => left.toFloat == right.toFloat
  | _, _ => false

/-- A number lies above another, both finite. -/
def above (left right : Numeric) : Bool :=
  match left.exactValue?, right.exactValue? with
  | some left, some right => right.below left
  | _, _ => false

end Numeric

end Wavetable.Settings
